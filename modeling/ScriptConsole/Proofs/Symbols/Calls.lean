import ScriptConsole.Proofs.Symbol

/-! # Calls of a table of symbols

A table of symbols is asked for the symbols of names and of constants, in any order. After any
calls it knows the names that were interned, in the spelling that came first
(`ScriptConsole.SymbolTable.find?_after`), and the symbols in its answers are of these spellings
(`ScriptConsole.SymbolTable.spelled_of_mem_history`), whether they were given early or late.
-/

namespace ScriptConsole.SymbolTable

/-- A call of a table of symbols. -/
inductive Call where
  | intern (name : String)
  | constant (text : String)
  | find (name : String)
  deriving DecidableEq

namespace Call

/-- The name whose symbol a call asks for. -/
def name? : Call → Option String
  | intern name => some name
  | constant _ => none
  | find name => some name

/-- The name that a call interns. -/
def interned? : Call → Option String
  | intern name => some name
  | _ => none

/-- Whether a call looks for a name only. -/
def looks : Call → Bool
  | find _ => true
  | _ => false

end Call

/-- The symbol that a call is answered with, and the table afterwards. -/
def respond (symbols : SymbolTable) : Call → Option Symbol × SymbolTable
  | .intern name => (some (symbols.intern name).1, (symbols.intern name).2)
  | .constant text => (some (symbols.constant text), symbols)
  | .find name => (symbols.find? name, symbols)

/-- The table after some calls. -/
def after (symbols : SymbolTable) (calls : List Call) : SymbolTable :=
  calls.foldl (fun symbols call => (symbols.respond call).2) symbols

/-- Some calls in order, each with the symbol that it is answered with. -/
def history (symbols : SymbolTable) : List Call → List (Call × Option Symbol)
  | [] => []
  | call :: calls => (call, (symbols.respond call).1) :: (symbols.respond call).2.history calls

/-- The first spelling in which some calls intern a name. -/
def spelling? (calls : List Call) (name : String) : Option String :=
  (calls.filterMap Call.interned?).find? (Text.sameFolded · name)

section Spellings

variable {calls : List Call} {name other spelling : String}

theorem spelling?_append (first second : List Call) (name : String) :
    spelling? (first ++ second) name = (spelling? first name).or (spelling? second name) := by
  unfold spelling?
  rw [List.filterMap_append, List.find?_append]

/-- Names that differ in letter case alone have the same first spelling. -/
theorem spelling?_congr (same : Text.fold name = Text.fold other) :
    spelling? calls name = spelling? calls other := by
  unfold spelling? Text.sameFolded
  rw [same]

theorem fold_spelling (spelled : spelling? calls name = some spelling) :
    Text.fold spelling = Text.fold name := by
  have same := List.find?_some spelled
  exact beq_iff_eq.mp same

/-- The names that calls intern are those of the calls that intern. -/
theorem mem_interned_iff : name ∈ calls.filterMap Call.interned? ↔ .intern name ∈ calls := by
  rw [List.mem_filterMap]
  constructor
  · rintro ⟨call, member, interns⟩
    cases call with
    | intern interned =>
        obtain rfl := Option.some.inj interns
        exact member
    | constant text => contradiction
    | find sought => contradiction
  · exact fun member => ⟨_, member, rfl⟩

/-- A name has a first spelling if it was interned, in whatever letter case. -/
theorem spelling?_isSome_iff : (spelling? calls name).isSome ↔
    ∃ other, .intern other ∈ calls ∧ Text.fold other = Text.fold name := by
  unfold spelling? Text.sameFolded
  rw [List.find?_isSome]
  simp only [mem_interned_iff, beq_iff_eq]

end Spellings

section Answers

variable {symbols : SymbolTable} {calls : List Call} {call : Call} {answer : Option Symbol}
  {name : String}

theorem respond_serial (symbols : SymbolTable) (call : Call) :
    (symbols.respond call).2.serial = symbols.serial := by
  cases call with
  | intern name => exact (symbols.keeps_intern name).serial
  | constant text => rfl
  | find name => rfl

theorem after_serial (symbols : SymbolTable) (calls : List Call) :
    (symbols.after calls).serial = symbols.serial := by
  induction calls generalizing symbols with
  | nil => rfl
  | cons call calls ih => exact (ih _).trans (symbols.respond_serial call)

/-- A name is known from then on, in its own spelling unless it was known before. -/
theorem intern_fst (symbols : SymbolTable) (name : String) :
    (symbols.intern name).1 = (symbols.find? name).getD ⟨symbols.serial, false, name⟩ := by
  unfold intern
  cases symbols.find? name <;> rfl

/-- After a call a name is found if it was found before, or if the call interned it. It is then
spelled as the call spells it. -/
theorem find?_respond (symbols : SymbolTable) (call : Call) (name : String) :
    (symbols.respond call).2.find? name =
      (symbols.find? name).or ((spelling? [call] name).map (⟨symbols.serial, false, ·⟩)) := by
  cases call with
  | constant text => exact Option.or_none.symm
  | find sought => exact Option.or_none.symm
  | intern interned =>
      have first : spelling? [.intern interned] name =
          if Text.fold interned = Text.fold name then some interned else none := by
        unfold spelling? Text.sameFolded
        simp only [List.filterMap_cons, Call.interned?, List.filterMap_nil, List.find?_singleton,
          beq_iff_eq]
      rw [first]
      unfold respond intern
      dsimp only
      cases known : symbols.find? interned with
      | some symbol =>
          dsimp only
          split
          next same => rw [← find?_congr same, known, Option.some_or]
          next => exact Option.or_none.symm
      | none =>
          dsimp only
          unfold find? at known ⊢
          rw [Std.TreeMap.getElem?_insert]
          simp only [Std.compare_eq_iff_eq]
          split
          next same => rw [← same, known, Option.none_or]
          next => exact Option.or_none.symm

/-- After any calls a table knows the names that it knew before, and those that were interned. -/
theorem find?_after (symbols : SymbolTable) (calls : List Call) (name : String) :
    (symbols.after calls).find? name =
      (symbols.find? name).or ((spelling? calls name).map (⟨symbols.serial, false, ·⟩)) := by
  induction calls generalizing symbols with
  | nil => exact Option.or_none.symm
  | cons call calls ih =>
      have rest := ih (symbols.respond call).2
      rw [find?_respond, respond_serial, Option.or_assoc, ← Option.map_or,
        ← spelling?_append] at rest
      exact rest

/-- A call in a history is answered by the table that the calls before it leave. -/
theorem exists_of_mem_history (member : (call, answer) ∈ symbols.history calls) :
    ∃ before later, calls = before ++ call :: later ∧
      answer = ((symbols.after before).respond call).1 := by
  induction calls generalizing symbols with
  | nil => contradiction
  | cons first calls ih =>
      rcases List.mem_cons.mp member with here | there
      · obtain ⟨rfl, rfl⟩ := Prod.mk.inj here
        exact ⟨[], calls, rfl, rfl⟩
      · obtain ⟨before, later, rfl, answered⟩ := ih there
        exact ⟨first :: before, later, rfl, answered⟩

end Answers

section New

variable {serial : Nat} {calls : List Call} {call : Call} {symbol : Symbol} {name text : String}

/-- A new table knows the names that were interned, in the spelling that came first. -/
theorem find?_after_empty (serial : Nat) (calls : List Call) (name : String) :
    ((empty serial).after calls).find? name =
      (spelling? calls name).map (⟨serial, false, ·⟩) := by
  have none : (empty serial).find? name = none := by
    unfold find? empty
    rw [Std.TreeMap.getElem?_emptyc, Option.map_none]
  rw [find?_after, none, Option.none_or]
  rfl

/-- The symbol of a name is spelled as the name was first interned, whenever it is asked for. -/
theorem spelled_of_mem_history (member : (call, some symbol) ∈ (empty serial).history calls)
    (names : call.name? = some name) :
    ∃ spelling, spelling? calls name = some spelling ∧ symbol = ⟨serial, false, spelling⟩ := by
  obtain ⟨before, later, rfl, answered⟩ := exists_of_mem_history member
  rw [spelling?_append]
  cases call with
  | constant text => contradiction
  | find sought =>
      obtain rfl := Option.some.inj names
      have found : ((empty serial).after before).find? sought = some symbol := answered.symm
      rw [find?_after_empty] at found
      obtain ⟨spelling, spelled, rfl⟩ := Option.map_eq_some_iff.mp found
      exact ⟨spelling, by rw [spelled, Option.some_or], rfl⟩
  | intern interned =>
      obtain rfl := Option.some.inj names
      have given := Option.some.inj answered
      rw [intern_fst, find?_after_empty, after_serial] at given
      refine ⟨(spelling? before interned).getD interned, ?_, ?_⟩
      · cases spelling? before interned with
        | some spelling => rfl
        | none =>
            rw [Option.none_or, Option.getD_none]
            unfold spelling? Text.sameFolded
            simp only [List.filterMap_cons, Call.interned?, BEq.rfl, List.find?_cons_of_pos]
      · rw [given]
        cases spelling? before interned <;> rfl

/-- The symbol of a constant is spelled as the constant. -/
theorem constant_of_mem_history
    (member : (.constant text, some symbol) ∈ (empty serial).history calls) :
    symbol = ⟨serial, true, text⟩ := by
  obtain ⟨before, later, rfl, answered⟩ := exists_of_mem_history member
  have given : symbol = ⟨((empty serial).after before).serial, true, text⟩ :=
    Option.some.inj answered
  rw [given, after_serial]
  rfl

end New

/-- Calls that look for a name leave no trace. -/
theorem after_filter_looks (symbols : SymbolTable) (calls : List Call) :
    symbols.after (calls.filter fun call => !call.looks) = symbols.after calls := by
  induction calls generalizing symbols with
  | nil => rfl
  | cons call calls ih => cases call <;> exact ih _

end ScriptConsole.SymbolTable
