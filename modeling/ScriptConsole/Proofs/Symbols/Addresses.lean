import Mathlib.Data.List.Forall2
import Mathlib.Data.List.Nodup
import ScriptConsole.Proofs.Symbols.Calls

/-! # Symbols and addresses

Interned strings may be told apart by the addresses at which their texts are kept, without a look at
the texts (`ScriptConsole.TextStore`). Symbols stand for these addresses one to one
(`ScriptConsole.TextStore.Mirrors`): whatever calls are made of a store and of a table of symbols,
the answers agree. So symbols, and addresses, tell names and constants apart
(`ScriptConsole.SymbolTable.identities_over_history`).
-/

namespace ScriptConsole

open SymbolTable (Call)

/-- Texts, each kept for ever at an address, which is its index, with the addresses of names by
their folded spelling and those of constants by their text. -/
structure TextStore where
  texts : List String
  names : Std.TreeMap String Nat
  constants : Std.TreeMap String Nat

namespace TextStore

section Definitions

/-- The store without texts. -/
def empty : TextStore :=
  ⟨[], {}, {}⟩

/-- The address of a name that was interned before. -/
def find? (store : TextStore) (name : String) : Option Nat :=
  store.names[Text.fold name]?

/-- The address of a name, which is put at a new one unless it has one. -/
def intern (store : TextStore) (name : String) : Nat × TextStore :=
  match store.find? name with
  | some address => (address, store)
  | none =>
    (store.texts.length,
      { store with
        texts := store.texts ++ [name]
        names := store.names.insert (Text.fold name) store.texts.length })

/-- The address of a constant, which is put at a new one unless it has one. -/
def constant (store : TextStore) (text : String) : Nat × TextStore :=
  match store.constants[text]? with
  | some address => (address, store)
  | none =>
    (store.texts.length,
      { store with
        texts := store.texts ++ [text]
        constants := store.constants.insert text store.texts.length })

/-- The address that a call is answered with, and the store afterwards. -/
def respond (store : TextStore) : Call → Option Nat × TextStore
  | .intern name => (some (store.intern name).1, (store.intern name).2)
  | .constant text => (some (store.constant text).1, (store.constant text).2)
  | .find name => (store.find? name, store)

/-- The store after some calls. -/
def after (store : TextStore) (calls : List Call) : TextStore :=
  calls.foldl (fun store call => (store.respond call).2) store

/-- Some calls in order, each with the address that it is answered with. -/
def history (store : TextStore) : List Call → List (Call × Option Nat)
  | [] => []
  | call :: calls => (call, (store.respond call).1) :: (store.respond call).2.history calls

/-- An answer with an address and an answer with the symbol of the address, or neither. -/
def Agree (marks : List Symbol) : Option Nat → Option Symbol → Prop :=
  Option.Rel fun address symbol => marks[address]? = some symbol

/-- The symbols of all addresses in order agree with a store and with a table of symbols. -/
structure Mirrors (marks : List Symbol) (store : TextStore) (symbols : SymbolTable) : Prop where
  texts : store.texts = marks.map Symbol.text
  distinct : marks.Nodup
  lawful : symbols.Lawful
  known : ∀ text, (⟨symbols.serial, false, text⟩ : Symbol) ∈ marks ↔
    symbols.names[Text.fold text]? = some text
  names : ∀ (key : String) (address : Nat), store.names[key]? = some address ↔
    ∃ text, symbols.names[key]? = some text ∧
      marks[address]? = some (⟨symbols.serial, false, text⟩ : Symbol)
  constants : ∀ (text : String) (address : Nat), store.constants[text]? = some address ↔
    marks[address]? = some (⟨symbols.serial, true, text⟩ : Symbol)

end Definitions

section Lists

variable {α : Type} {items more : List α} {item last : α} {index : Nat}

theorem getElem?_append_of_eq_some (more : List α) (found : items[index]? = some item) :
    (items ++ more)[index]? = some item := by
  obtain ⟨within, -⟩ := List.getElem?_eq_some_iff.mp found
  rw [List.getElem?_append_left within, found]

/-- With one more item at the end, an index leads where it led, or it is the next one and leads to
the item. -/
theorem getElem?_concat_eq_some_iff : (items ++ [last])[index]? = some item ↔
    items[index]? = some item ∨ items.length = index ∧ last = item := by
  constructor
  · intro found
    obtain ⟨within, -⟩ := List.getElem?_eq_some_iff.mp found
    rw [List.length_append, List.length_singleton] at within
    by_cases early : index < items.length
    · exact .inl (List.getElem?_append_left early ▸ found)
    · obtain rfl : index = items.length := by omega
      rw [List.getElem?_concat_length] at found
      exact .inr ⟨rfl, Option.some.inj found⟩
  · rintro (found | ⟨rfl, rfl⟩)
    · exact getElem?_append_of_eq_some _ found
    · exact List.getElem?_concat_length

end Lists

namespace Agree

variable {marks : List Symbol} {address : Option Nat} {symbol : Option Symbol}

theorem append (agree : Agree marks address symbol) (more : List Symbol) :
    Agree (marks ++ more) address symbol := by
  cases agree with
  | none => exact .none
  | some mark => exact .some (getElem?_append_of_eq_some more mark)

/-- The symbol is that of the address, whatever stands for other addresses. -/
theorem eq_map (agree : Agree marks address symbol) (other : Symbol) :
    symbol = address.map (marks.getD · other) := by
  cases agree with
  | none => rfl
  | some mark =>
      rw [Option.map_some, List.getD_eq_getElem?_getD, mark]
      rfl

theorem lt_length {number : Nat} (agree : Agree marks (some number) symbol) :
    number < marks.length := by
  cases agree with
  | some mark => exact (List.getElem?_eq_some_iff.mp mark).choose

end Agree

namespace Mirrors

variable {marks : List Symbol} {store : TextStore} {symbols : SymbolTable} {name text : String}

theorem empty (serial : Nat) : Mirrors [] .empty (.empty serial) where
  texts := rfl
  distinct := List.nodup_nil
  lawful := SymbolTable.lawful_empty serial
  known text := by simp [SymbolTable.empty]
  names key address := by simp [TextStore.empty, SymbolTable.empty]
  constants text address := by simp [TextStore.empty]

theorem length_texts (mirrors : Mirrors marks store symbols) :
    store.texts.length = marks.length := by
  rw [mirrors.texts, List.length_map]

/-- A name has an address if it has a symbol, and the symbol is that of the address. -/
theorem find? (mirrors : Mirrors marks store symbols) (name : String) :
    Agree marks (store.find? name) (symbols.find? name) := by
  unfold TextStore.find? SymbolTable.find?
  cases found : store.names[Text.fold name]? with
  | some address =>
      obtain ⟨text, known, mark⟩ := (mirrors.names _ _).mp found
      rw [known]
      exact .some mark
  | none =>
      cases known : symbols.names[Text.fold name]? with
      | none => exact .none
      | some text =>
          have same := mirrors.lawful _ _ known
          obtain ⟨address, mark⟩ :=
            List.mem_iff_getElem?.mp ((mirrors.known text).mpr (same ▸ known))
          have stored := (mirrors.names _ _).mpr ⟨text, known, mark⟩
          rw [found] at stored
          contradiction

/-- A name that is new is put at a new address. -/
theorem new_name (mirrors : Mirrors marks store symbols)
    (unknown : symbols.names[Text.fold name]? = none) :
    Mirrors (marks ++ [⟨symbols.serial, false, name⟩])
      { store with
        texts := store.texts ++ [name]
        names := store.names.insert (Text.fold name) store.texts.length }
      { symbols with names := symbols.names.insert (Text.fold name) name } where
  texts := by rw [mirrors.texts, List.map_append, List.map_singleton]
  distinct := by
    refine mirrors.distinct.append (List.nodup_singleton _) (List.disjoint_singleton.mpr ?_)
    rw [mirrors.known, unknown]
    exact (Option.some_ne_none name).symm
  lawful key spelling found := by
    rw [Std.TreeMap.getElem?_insert] at found
    split at found
    next same =>
      obtain rfl := Option.some.inj found
      exact Std.compare_eq_iff_eq.mp same
    next => exact mirrors.lawful key spelling found
  known text := by
    rw [List.mem_append, List.mem_singleton, mirrors.known, Std.TreeMap.getElem?_insert]
    simp only [Std.compare_eq_iff_eq, Symbol.mk.injEq, true_and]
    split
    next same => simp only [← same, unknown, reduceCtorEq, false_or, Option.some.injEq, eq_comm]
    next other =>
      refine or_iff_left ?_
      rintro rfl
      exact other rfl
  names key address := by
    rw [Std.TreeMap.getElem?_insert, Std.TreeMap.getElem?_insert, mirrors.length_texts]
    simp only [Std.compare_eq_iff_eq, getElem?_concat_eq_some_iff, Symbol.mk.injEq, true_and]
    split
    next same =>
      subst same
      simp only [Option.some.injEq, exists_eq_left', and_true, iff_or_self]
      intro mark
      have known := (mirrors.known name).mp (List.mem_of_getElem? mark)
      rw [unknown] at known
      contradiction
    next other =>
      rw [mirrors.names]
      refine exists_congr fun text => and_congr_right fun known => (or_iff_left ?_).symm
      rintro ⟨-, rfl⟩
      exact other (mirrors.lawful _ _ known)
  constants text address := by
    rw [getElem?_concat_eq_some_iff, ← mirrors.constants]
    refine (or_iff_left ?_).symm
    rintro ⟨-, same⟩
    exact Bool.false_ne_true (Symbol.mk.inj same).2.1

/-- A constant that is new is put at a new address. -/
theorem new_constant (mirrors : Mirrors marks store symbols)
    (unknown : store.constants[text]? = none) :
    Mirrors (marks ++ [⟨symbols.serial, true, text⟩])
      { store with
        texts := store.texts ++ [text]
        constants := store.constants.insert text store.texts.length } symbols where
  texts := by rw [mirrors.texts, List.map_append, List.map_singleton]
  distinct := by
    refine mirrors.distinct.append (List.nodup_singleton _) (List.disjoint_singleton.mpr ?_)
    intro member
    obtain ⟨address, mark⟩ := List.mem_iff_getElem?.mp member
    rw [← mirrors.constants, unknown] at mark
    contradiction
  lawful := mirrors.lawful
  known name := by
    rw [List.mem_append, List.mem_singleton, mirrors.known]
    refine or_iff_left fun same => ?_
    exact nomatch (Symbol.mk.inj same).2.1
  names key address := by
    rw [mirrors.names]
    refine exists_congr fun name => and_congr_right fun known => ?_
    rw [getElem?_concat_eq_some_iff]
    refine (or_iff_left ?_).symm
    rintro ⟨-, same⟩
    exact nomatch (Symbol.mk.inj same).2.1
  constants other address := by
    rw [Std.TreeMap.getElem?_insert, mirrors.length_texts, getElem?_concat_eq_some_iff,
      ← mirrors.constants]
    simp only [Std.compare_eq_iff_eq, Symbol.mk.injEq, true_and]
    split
    next same =>
      subst same
      simp only [unknown, reduceCtorEq, false_or, and_true, Option.some.injEq]
    next different => simp only [different, and_false, or_false]

/-- A call is answered with an address and with its symbol, or with neither. -/
theorem respond (mirrors : Mirrors marks store symbols) (call : Call) :
    ∃ more, Mirrors (marks ++ more) (store.respond call).2 (symbols.respond call).2 ∧
      Agree (marks ++ more) (store.respond call).1 (symbols.respond call).1 := by
  have kept {address : Nat} {symbol : Symbol} (mark : marks[address]? = some symbol) :
      Mirrors (marks ++ []) store symbols ∧
        Agree (marks ++ []) (some address) (some symbol) := by
    rw [List.append_nil]
    exact ⟨mirrors, .some mark⟩
  have added (symbol : Symbol) : (marks ++ [symbol])[store.texts.length]? = some symbol := by
    rw [mirrors.length_texts]
    exact List.getElem?_concat_length
  cases call with
  | find name =>
      refine ⟨[], ?_⟩
      rw [List.append_nil]
      exact ⟨mirrors, mirrors.find? name⟩
  | intern name =>
      unfold TextStore.respond SymbolTable.respond TextStore.intern SymbolTable.intern
      dsimp only
      have agree := mirrors.find? name
      cases known : symbols.find? name with
      | some symbol =>
          cases stored : store.find? name with
          | none =>
              rw [known, stored] at agree
              exact nomatch agree
          | some address =>
              rw [known, stored] at agree
              cases agree with
              | some mark => exact ⟨[], kept mark⟩
      | none =>
          cases stored : store.find? name with
          | some address =>
              rw [known, stored] at agree
              exact nomatch agree
          | none =>
              exact ⟨_, mirrors.new_name (Option.map_eq_none_iff.mp known), .some (added _)⟩
  | constant text =>
      unfold TextStore.respond SymbolTable.respond TextStore.constant SymbolTable.constant
      dsimp only
      cases stored : store.constants[text]? with
      | some address => exact ⟨[], kept ((mirrors.constants text address).mp stored)⟩
      | none => exact ⟨_, mirrors.new_constant stored, .some (added _)⟩

/-- All calls are answered with addresses and with their symbols. -/
theorem after (mirrors : Mirrors marks store symbols) (calls : List Call) :
    ∃ more, Mirrors (marks ++ more) (store.after calls) (symbols.after calls) ∧
      List.Forall₂ (fun stored shown => stored.1 = shown.1 ∧
          Agree (marks ++ more) stored.2 shown.2)
        (store.history calls) (symbols.history calls) := by
  induction calls generalizing marks store symbols with
  | nil =>
      refine ⟨[], ?_, .nil⟩
      rw [List.append_nil]
      exact mirrors
  | cons call calls ih =>
      obtain ⟨first, next, answered⟩ := mirrors.respond call
      obtain ⟨more, last, rest⟩ := ih next
      rw [List.append_assoc] at last rest
      refine ⟨first ++ more, last, .cons ⟨rfl, ?_⟩ rest⟩
      rw [← List.append_assoc]
      exact answered.append more

end Mirrors

section Texts

variable {store : TextStore}

/-- A call keeps all texts at their addresses and puts a new one behind them at most. -/
theorem texts_prefix_respond (store : TextStore) (call : Call) :
    store.texts <+: (store.respond call).2.texts := by
  cases call with
  | find name => exact List.prefix_rfl
  | intern name =>
      unfold respond intern
      dsimp only
      cases store.find? name with
      | some address => exact List.prefix_rfl
      | none => exact List.prefix_append _ _
  | constant text =>
      unfold respond constant
      dsimp only
      cases store.constants[text]? with
      | some address => exact List.prefix_rfl
      | none => exact List.prefix_append _ _

/-- Texts stay at their addresses. -/
theorem texts_prefix_after (store : TextStore) (calls : List Call) :
    store.texts <+: (store.after calls).texts := by
  induction calls generalizing store with
  | nil => exact List.prefix_rfl
  | cons call calls ih => exact (store.texts_prefix_respond call).trans (ih _)

theorem after_append (store : TextStore) (first second : List Call) :
    store.after (first ++ second) = (store.after first).after second :=
  List.foldl_append

/-- Calls that look for a name put nothing into the store. -/
theorem after_filter_looks (store : TextStore) (calls : List Call) :
    store.after (calls.filter fun call => !call.looks) = store.after calls := by
  induction calls generalizing store with
  | nil => rfl
  | cons call calls ih => cases call <;> exact ih _

end Texts

/-- Symbols are the addresses of the texts in a store that is given the same calls. -/
theorem exists_symbolOf (serial : Nat) (calls : List Call) : ∃ symbolOf : Nat → Symbol,
    (∀ first second, first < (empty.after calls).texts.length →
      second < (empty.after calls).texts.length → symbolOf first = symbolOf second →
      first = second) ∧
    (∀ call address, (call, some address) ∈ empty.history calls → ∀ later,
      (empty.after (calls ++ later)).texts[address]? = some (symbolOf address).text) ∧
    (SymbolTable.empty serial).history calls =
      (empty.history calls).map fun entry => (entry.1, entry.2.map symbolOf) := by
  obtain ⟨marks, mirrors, agree⟩ := (Mirrors.empty serial).after calls
  rw [List.nil_append] at mirrors agree
  generalize empty.history calls = stored at agree ⊢
  generalize (SymbolTable.empty serial).history calls = shown at agree ⊢
  refine ⟨(marks.getD · ⟨serial, false, ""⟩), ?_, ?_, ?_⟩
  · intro first second inside within same
    rw [mirrors.length_texts] at inside within
    simp only [List.getD_eq_getElem?_getD, List.getElem?_eq_getElem inside,
      List.getElem?_eq_getElem within, Option.getD_some] at same
    exact mirrors.distinct.getElem_inj_iff.mp same
  · intro call address member later
    have within : address < marks.length := by
      induction agree with
      | nil => contradiction
      | cons first rest ih =>
          rcases List.mem_cons.mp member with rfl | member
          · exact first.2.lt_length
          · exact ih member
    obtain ⟨more, same⟩ := (empty.after calls).texts_prefix_after later
    rw [after_append, ← same]
    refine getElem?_append_of_eq_some more ?_
    simp only [mirrors.texts, List.getElem?_map, List.getD_eq_getElem?_getD,
      List.getElem?_eq_getElem within, Option.map_some, Option.getD_some]
  · induction agree with
    | nil => rfl
    | cons first rest ih =>
        rw [List.map_cons, ← ih, ← first.2.eq_map, first.1]

end TextStore

namespace SymbolTable

/-- Whatever calls are made of a new table, names have the same symbol if they differ in letter case
alone, constants if they are identical, and a name never has the symbol of a constant. A name is
found exactly if it was interned, in whatever letter case, and looking for names leaves no trace.
Symbols keep the spelling that was first interned. They stand for addresses at which texts are kept,
one to one, in a store that is given the same calls. -/
theorem identities_over_history (serial : Nat) (calls : List Call) :
    (∀ first second name other symbol symbol',
      (first, some symbol) ∈ (empty serial).history calls →
      (second, some symbol') ∈ (empty serial).history calls →
      first.name? = some name → second.name? = some other →
      (symbol = symbol' ↔ Text.fold name = Text.fold other)) ∧
    (∀ text other symbol symbol',
      (.constant text, some symbol) ∈ (empty serial).history calls →
      (.constant other, some symbol') ∈ (empty serial).history calls →
      (symbol = symbol' ↔ text = other)) ∧
    (∀ call name text symbol symbol',
      (call, some symbol) ∈ (empty serial).history calls → call.name? = some name →
      (.constant text, some symbol') ∈ (empty serial).history calls → symbol ≠ symbol') ∧
    (∀ name,
      ((∃ other, .intern other ∈ calls ∧ Text.fold other = Text.fold name) →
        ∃ symbol, ((empty serial).after calls).find? name = some symbol ∧
          ((empty serial).after calls).intern name = (symbol, (empty serial).after calls)) ∧
      ((¬∃ other, .intern other ∈ calls ∧ Text.fold other = Text.fold name) →
        ((empty serial).after calls).find? name = none)) ∧
    (empty serial).after (calls.filter fun call => !call.looks) = (empty serial).after calls ∧
    TextStore.empty.after (calls.filter fun call => !call.looks) = TextStore.empty.after calls ∧
    (∀ call name symbol, (call, some symbol) ∈ (empty serial).history calls →
      call.name? = some name → spelling? calls name = some symbol.text) ∧
    (∀ text symbol, (.constant text, some symbol) ∈ (empty serial).history calls →
      symbol.text = text) ∧
    ∃ symbolOf : Nat → Symbol,
      (∀ first second, first < (TextStore.empty.after calls).texts.length →
        second < (TextStore.empty.after calls).texts.length → symbolOf first = symbolOf second →
        first = second) ∧
      (∀ call address, (call, some address) ∈ TextStore.empty.history calls → ∀ later,
        (TextStore.empty.after (calls ++ later)).texts[address]? =
          some (symbolOf address).text) ∧
      (empty serial).history calls =
        (TextStore.empty.history calls).map fun entry => (entry.1, entry.2.map symbolOf) := by
  refine ⟨?_, ?_, ?_, ?_, after_filter_looks _ _, TextStore.after_filter_looks _ _, ?_, ?_,
    TextStore.exists_symbolOf serial calls⟩
  · intro first second name other symbol symbol' member member' names names'
    obtain ⟨spelling, spelled, rfl⟩ := spelled_of_mem_history member names
    obtain ⟨spelling', spelled', rfl⟩ := spelled_of_mem_history member' names'
    rw [← fold_spelling spelled, ← fold_spelling spelled', Symbol.mk.injEq]
    constructor
    · rintro ⟨-, -, rfl⟩
      rfl
    · intro same
      refine ⟨rfl, rfl, ?_⟩
      rw [fold_spelling spelled, fold_spelling spelled'] at same
      rw [spelling?_congr same, spelled'] at spelled
      exact (Option.some.inj spelled).symm
  · intro text other symbol symbol' member member'
    rw [constant_of_mem_history member, constant_of_mem_history member', Symbol.mk.injEq]
    simp only [true_and]
  · intro call name text symbol symbol' member names member'
    obtain ⟨spelling, -, rfl⟩ := spelled_of_mem_history member names
    rw [constant_of_mem_history member']
    exact fun same => nomatch (Symbol.mk.inj same).2.1
  · intro name
    rw [← spelling?_isSome_iff, find?_after_empty]
    constructor
    · intro spelled
      obtain ⟨spelling, spelled⟩ := Option.isSome_iff_exists.mp spelled
      have known := find?_after_empty serial calls name
      rw [spelled] at known ⊢
      refine ⟨_, rfl, ?_⟩
      unfold intern
      rw [known]
      rfl
    · intro unspelled
      rw [Option.not_isSome_iff_eq_none.mp unspelled, Option.map_none]
  · intro call name symbol member names
    obtain ⟨spelling, spelled, rfl⟩ := spelled_of_mem_history member names
    exact spelled
  · intro text symbol member
    rw [constant_of_mem_history member]

/-- A name in two letter cases, looked for in a third, between constants of the same letters. -/
private def mixed : List Call :=
  [.constant "Foo", .intern "Foo", .find "FOO", .constant "foo", .intern "fOO"]

/-- In the sample a name is one symbol in all letter cases, spelled as it was first, and the
constant of the same letters is another one. -/
theorem identities_over_history_mixed :
    ∃ name constant : Symbol, (.find "FOO", some name) ∈ (empty 0).history mixed ∧
      (.intern "fOO", some name) ∈ (empty 0).history mixed ∧
      (.constant "Foo", some constant) ∈ (empty 0).history mixed ∧ name ≠ constant ∧
      spelling? mixed "FOO" = some name.text ∧ constant.text = "Foo" ∧
      ((empty 0).after mixed).find? "Bar" = none := by
  obtain ⟨same, _, apart, found, _, _, spelled, exact, _⟩ := identities_over_history 0 mixed
  have sought : (.find "FOO", some ⟨0, false, "Foo"⟩) ∈ (empty 0).history mixed := by
    decide +kernel
  have interned : (.intern "fOO", some ⟨0, false, "Foo"⟩) ∈ (empty 0).history mixed := by
    decide +kernel
  have given : (.constant "Foo", some ⟨0, true, "Foo"⟩) ∈ (empty 0).history mixed := by
    decide +kernel
  have unspelled : spelling? mixed "Bar" = none := by decide +kernel
  refine ⟨_, _, sought, ?_, given, apart _ _ _ _ _ sought rfl given, spelled _ _ _ sought rfl,
    exact _ _ given, (found "Bar").2 ?_⟩
  · rw [(same _ _ _ _ _ _ sought interned rfl rfl).mpr (by decide +kernel)]
    exact interned
  · rw [← spelling?_isSome_iff, unspelled]
    exact Bool.false_ne_true

end SymbolTable

end ScriptConsole
