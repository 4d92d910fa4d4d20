import ScriptConsole.Proofs.Numeric.Digits
import ScriptConsole.Tag.Wire

/-! # The text form of tags is read back

A text is read as a tag if it is the marker and digits whose number can be a tag
(`ScriptConsole.Tag.decode?_eq_some_iff`). Where a bare number is allowed, it is read, too
(`ScriptConsole.Tag.parse?_eq_some_iff`).
-/

namespace ScriptConsole.Tag

/-- Digits write a number that can be a tag. -/
def Writes (digits : List Char) (id : Nat) : Prop :=
  digits ≠ [] ∧ (∀ c ∈ digits, c.isDigit = true) ∧ Nat.ofDigitChars 10 digits 0 = id ∧ id < bound

theorem writes_toDigits {id : Nat} (below : id < bound) : Writes (Nat.toDigits 10 id) id :=
  ⟨Nat.toDigits_ne_nil,
    fun _ member => Nat.isDigit_of_mem_toDigits (by decide) (by decide) member,
    Nat.ofDigitChars_ten_toDigits, below⟩

/-- A text is read as a number below the bound if it is written with one or more digits that make
it. -/
theorem digits?_eq_some_iff {text : List Char} {id : Nat} :
    digits? text = some id ↔ Writes text id := by
  unfold digits?
  split
  next => exact iff_of_false nofun fun writes => writes.1 rfl
  next rest =>
    refine iff_of_false nofun fun writes => ?_
    exact absurd (writes.2.1 '+' List.mem_cons_self) (by decide)
  next unsigned =>
    refine parseNat?_eq_some_iff (by decide) fun plus => ?_
    obtain ⟨rest, rfl⟩ := List.head?_eq_some_iff.mp plus
    exact unsigned rest rfl

/-- A text is without its marker what stands behind the marker. -/
theorem unmark?_eq_some_iff {text rest : List Char} :
    unmark? text = some rest ↔ text = marker :: rest := by
  cases text with
  | nil => exact iff_of_false nofun nofun
  | cons c text =>
      rw [unmark?]
      by_cases marked : c = marker
      · rw [if_pos marked, marked, List.cons.injEq]
        exact ⟨fun same => ⟨rfl, Option.some.inj same⟩, fun same => congrArg some same.2⟩
      · rw [if_neg marked]
        exact iff_of_false nofun fun same => marked (List.cons.inj same).1

variable {text : String} {id : Nat}

/-- A tag is the marker and digits whose number can be one. -/
theorem decode?_eq_some_iff :
    decode? text = some id ↔ ∃ digits, text.toList = marker :: digits ∧ Writes digits id := by
  unfold decode?
  rw [Option.bind_eq_some_iff]
  constructor
  · rintro ⟨digits, unmarked, read⟩
    exact ⟨digits, unmark?_eq_some_iff.mp unmarked, digits?_eq_some_iff.mp read⟩
  · rintro ⟨digits, marked, writes⟩
    exact ⟨digits, unmark?_eq_some_iff.mpr marked, digits?_eq_some_iff.mpr writes⟩

/-- The form of a tag is read back. -/
theorem decode?_encode (below : id < bound) : decode? (encode id) = some id :=
  decode?_eq_some_iff.mpr ⟨_, String.toList_ofList, writes_toDigits below⟩

/-- A tag is named by its form or by the bare digits. -/
theorem parse?_eq_some_iff :
    parse? text = some id ↔ decode? text = some id ∨ Writes text.toList id := by
  unfold parse?
  rw [decode?_eq_some_iff, digits?_eq_some_iff]
  cases unmarked : unmark? text.toList with
  | some digits =>
      have marked := unmark?_eq_some_iff.mp unmarked
      rw [Option.getD_some, marked]
      constructor
      · exact fun writes => .inl ⟨digits, rfl, writes⟩
      · rintro (⟨others, same, writes⟩ | writes)
        · rw [(List.cons.inj same).2]
          exact writes
        · exact absurd (writes.2.1 marker List.mem_cons_self) (by decide)
  | none =>
      rw [Option.getD_none]
      refine ⟨.inr, fun either => either.resolve_left ?_⟩
      rintro ⟨digits, marked, -⟩
      rw [unmark?_eq_some_iff.mpr marked] at unmarked
      contradiction

end ScriptConsole.Tag
