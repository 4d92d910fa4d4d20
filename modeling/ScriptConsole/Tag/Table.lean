import Std.Data.TreeMap
import ScriptConsole.Text.Fold

/-! # Tagged strings

A tag is a small number that stands for a text. Texts that differ in letter case only
share a tag, the tag keeps the spelling it was made for, and it lasts until it has
been released as often as it was asked for. Numbers are never used again.
-/

namespace ScriptConsole

/-- A live tag: its text and how often it is held. -/
structure TagEntry where
  text : String
  holds : Nat

/-- The live tags by number and by folded text, and the number of the next one. -/
structure TagTable where
  entries : Std.TreeMap Nat TagEntry
  byText : Std.TreeMap String Nat
  next : Nat

namespace TagTable

/-- The table without tags. Numbering starts at 1. -/
def empty : TagTable :=
  ⟨{}, {}, 1⟩

/-- The tag of a text, without holding it. -/
def find? (tags : TagTable) (text : String) : Option Nat :=
  tags.byText[Text.fold text]?

/-- The spelling that a tag stands for. -/
def detag? (tags : TagTable) (id : Nat) : Option String :=
  (tags.entries[id]?).map TagEntry.text

/-- How often a tag is held; 0 for a number that is no tag. -/
def holds (tags : TagTable) (id : Nat) : Nat :=
  ((tags.entries[id]?).map TagEntry.holds).getD 0

/-- How many tags are live. -/
def size (tags : TagTable) : Nat :=
  tags.entries.size

/-- Makes a new tag for a text, held once. -/
def create (tags : TagTable) (text : String) : Nat × TagTable :=
  (tags.next,
    { entries := tags.entries.insert tags.next ⟨text, 1⟩
      byText := tags.byText.insert (Text.fold text) tags.next
      next := tags.next + 1 })

/-- Holds the tag of a text, a new one if there is none. -/
def tag (tags : TagTable) (text : String) : Nat × TagTable :=
  match tags.find? text with
  | none => tags.create text
  | some id =>
    match tags.entries[id]? with
    | none => tags.create text
    | some entry =>
      (id, { tags with entries := tags.entries.insert id { entry with holds := entry.holds + 1 } })

/-- Gives up one hold of a tag, which frees the tag with the last one. The answer is
whether the number is a tag. -/
def release (tags : TagTable) (id : Nat) : Bool × TagTable :=
  match tags.entries[id]? with
  | none => (false, tags)
  | some entry =>
    if entry.holds = 1 then
      (true,
        { tags with
          entries := tags.entries.erase id
          byText := tags.byText.erase (Text.fold entry.text) })
    else
      (true,
        { tags with entries := tags.entries.insert id { entry with holds := entry.holds - 1 } })

end TagTable

end ScriptConsole
