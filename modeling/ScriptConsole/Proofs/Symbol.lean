import ScriptConsole.Symbol

/-! # Growing symbol tables

A table grows by names that are interned (`ScriptConsole.SymbolTable.Grows`). It keeps the
symbols of all names that it knows (`ScriptConsole.SymbolTable.Keeps`), and names have the same
symbol if they differ in letter case alone (`ScriptConsole.SymbolTable.Lawful`).
-/

namespace ScriptConsole.SymbolTable

variable {symbols middle later : SymbolTable} {name : String} {symbol : Symbol}

/-- Whether a symbol is that of a name which the table knows in its spelling. -/
def Knows (symbols : SymbolTable) (name : Symbol) : Prop :=
  symbols.find? name.text = some name

/-- Names are known by their folded spelling. -/
def Lawful (symbols : SymbolTable) : Prop :=
  ∀ key spelling, symbols.names[key]? = some spelling → Text.fold spelling = key

/-- A table that gives the names of another one the same symbols. -/
structure Keeps (symbols later : SymbolTable) : Prop where
  serial : later.serial = symbols.serial
  names {name : String} {symbol : Symbol} :
    symbols.find? name = some symbol → later.find? name = some symbol

/-- Interning some names turns a table into another one. -/
def Grows (symbols later : SymbolTable) : Prop :=
  ∃ names, (symbols.internAll names).2 = later

/-- Names that differ in letter case alone have the same symbol. -/
theorem find?_congr {other : String} (same : Text.fold name = Text.fold other) :
    symbols.find? name = symbols.find? other := by
  unfold find?
  rw [same]

theorem find?_intern (symbols : SymbolTable) (name : String) :
    (symbols.intern name).2.find? name = some (symbols.intern name).1 := by
  unfold intern
  cases known : symbols.find? name with
  | some symbol => exact known
  | none =>
      simp only [find?, Std.TreeMap.getElem?_insert_self]
      rfl

section Lawful

theorem lawful_empty (serial : Nat) : (empty serial).Lawful := by
  intro key spelling found
  simp only [empty, Std.TreeMap.getElem?_emptyc, reduceCtorEq] at found

/-- Interning keeps the table lawful: a new name comes under its own folded spelling. -/
theorem Lawful.intern (lawful : symbols.Lawful) (name : String) :
    (symbols.intern name).2.Lawful := by
  unfold SymbolTable.intern
  cases symbols.find? name with
  | some symbol => exact lawful
  | none =>
      intro key spelling found
      rw [Std.TreeMap.getElem?_insert] at found
      split at found
      next same =>
          obtain rfl := Option.some.inj found
          exact Std.compare_eq_iff_eq.mp same
      next => exact lawful key spelling found

/-- The symbol of a name is spelled like the name, up to letter case. -/
theorem Lawful.fold_text (lawful : symbols.Lawful) (found : symbols.find? name = some symbol) :
    Text.fold symbol.text = Text.fold name := by
  obtain ⟨spelling, seen, rfl⟩ := Option.map_eq_some_iff.mp found
  exact lawful _ spelling seen

/-- The table knows the symbols that it gives. -/
theorem Lawful.knows (lawful : symbols.Lawful) (found : symbols.find? name = some symbol) :
    symbols.Knows symbol :=
  (find?_congr (lawful.fold_text found)).trans found

end Lawful

section Keeps

theorem Keeps.refl (symbols : SymbolTable) : symbols.Keeps symbols :=
  ⟨rfl, id⟩

theorem Keeps.trans (first : symbols.Keeps middle) (second : middle.Keeps later) :
    symbols.Keeps later :=
  ⟨second.serial.trans first.serial, fun known => second.names (first.names known)⟩

/-- No name loses its symbol when another one is interned. -/
theorem keeps_intern (symbols : SymbolTable) (text : String) :
    symbols.Keeps (symbols.intern text).2 := by
  unfold intern
  cases known : symbols.find? text with
  | some symbol => exact .refl symbols
  | none =>
      constructor
      · rfl
      · intro name symbol found
        unfold find? at known found ⊢
        rw [Option.map_eq_none_iff] at known
        have other : Text.fold text ≠ Text.fold name := by
          intro same
          rw [← same, known] at found
          contradiction
        rw [Std.TreeMap.getElem?_insert, if_neg (by simpa using other)]
        exact found

end Keeps

section Grows

theorem internAll_append (symbols : SymbolTable) (first second : List String) :
    (symbols.internAll (first ++ second)).2 =
      ((symbols.internAll first).2.internAll second).2 := by
  induction first generalizing symbols with
  | nil => rfl
  | cons name first ih => exact ih (symbols.intern name).2

theorem Grows.refl (symbols : SymbolTable) : symbols.Grows symbols :=
  ⟨[], rfl⟩

theorem Grows.trans (first : symbols.Grows middle) (second : middle.Grows later) :
    symbols.Grows later := by
  obtain ⟨names, rfl⟩ := first
  obtain ⟨others, rfl⟩ := second
  exact ⟨names ++ others, symbols.internAll_append names others⟩

theorem grows_intern (symbols : SymbolTable) (name : String) :
    symbols.Grows (symbols.intern name).2 :=
  ⟨[name], rfl⟩

/-- What interning a name keeps is kept as a table grows. -/
theorem Grows.induct (grows : symbols.Grows later) {property : SymbolTable → Prop}
    (intern : ∀ symbols name, property symbols → property (SymbolTable.intern symbols name).2)
    (holds : property symbols) : property later := by
  obtain ⟨names, rfl⟩ := grows
  induction names generalizing symbols with
  | nil => exact holds
  | cons name names ih => exact ih (intern symbols name holds)

theorem Grows.keeps (grows : symbols.Grows later) : symbols.Keeps later :=
  grows.induct (fun middle name keeps => keeps.trans (middle.keeps_intern name)) (.refl symbols)

theorem Grows.lawful (grows : symbols.Grows later) (lawful : symbols.Lawful) : later.Lawful :=
  grows.induct (fun _ name lawful => lawful.intern name) lawful

end Grows

end ScriptConsole.SymbolTable
