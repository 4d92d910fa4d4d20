import ScriptConsole.Numeric.Numeral

/-! # Numbers that digits write

Digits are read as the number that they write, if it is below a bound
(`ScriptConsole.valueBelow?_eq_some_iff`, `ScriptConsole.parseNat?_eq_some_iff`), and the decimal
digits of a number are read as the number.
-/

namespace ScriptConsole

section Values

variable {bound base value : Nat} {digits : List Nat}

theorem le_foldl_digits (positive : 0 < base) (digits : List Nat) (value : Nat) :
    value ≤ digits.foldl (fun value digit => value * base + digit) value := by
  induction digits generalizing value with
  | nil => exact Nat.le_refl value
  | cons digit digits ih =>
      have step : value ≤ value * base + digit :=
        Nat.le_trans (Nat.le_mul_of_pos_right value positive) (Nat.le_add_right _ _)
      exact Nat.le_trans step (ih _)

/-- Digits are read as the number that they write if it is below the bound, and no others are. -/
theorem valueBelow?_eq_some_iff (positive : 0 < base) (room : 0 < bound) :
    valueBelow? bound base digits = some value ↔
      digits.foldl (fun value digit => value * base + digit) 0 = value ∧ value < bound := by
  have reads (digits : List Nat) (front : Nat) (below : front < bound) :
      digits.foldlM (fun value digit =>
        let next := value * base + digit
        if next < bound then some next else none) front = some value ↔
      digits.foldl (fun value digit => value * base + digit) front = value ∧ value < bound := by
    induction digits generalizing front with
    | nil =>
        constructor
        · intro read
          obtain rfl := Option.some.inj read
          exact ⟨rfl, below⟩
        · rintro ⟨rfl, _⟩
          rfl
    | cons digit digits ih =>
        rw [List.foldlM_cons, List.foldl_cons]
        by_cases next : front * base + digit < bound
        · rw [if_pos next]
          exact ih _ next
        · rw [if_neg next]
          refine iff_of_false nofun fun ⟨same, small⟩ => next ?_
          -- No further digit makes the number smaller.
          have grows := le_foldl_digits positive digits (front * base + digit)
          rw [same] at grows
          exact Nat.lt_of_le_of_lt grows small
  exact reads digits 0 room

end Values

section Decimals

theorem bounds_of_mem_toDigits {number : Nat} {c : Char} (member : c ∈ Nat.toDigits 10 number) :
    48 ≤ c.toNat ∧ c.toNat ≤ 57 :=
  Char.isDigit_iff_toNat.mp (Nat.isDigit_of_mem_toDigits (by decide) (by decide) member)

/-- A text without a plus sign in front is a number if it is digits whose number is below the
bound. -/
theorem parseNat?_eq_some_iff {bound value : Nat} {text : List Char} (room : 0 < bound)
    (unsigned : text.head? ≠ some '+') :
    parseNat? bound text = some value ↔
      text ≠ [] ∧ (∀ c ∈ text, c.isDigit = true) ∧ Nat.ofDigitChars 10 text 0 = value ∧
        value < bound := by
  have written : (text.map fun c => c.toNat - 0x30).foldl
      (fun value digit => value * 10 + digit) 0 = Nat.ofDigitChars 10 text 0 := by
    rw [List.foldl_map]
    unfold Nat.ofDigitChars
    congr 1
    funext value c
    rw [Nat.mul_comm]
    rfl
  unfold parseNat?
  split
  next rest => exact absurd rfl unsigned
  next =>
    dsimp only
    split
    next other =>
      rw [Bool.or_eq_true, List.isEmpty_iff, Bool.not_eq_true', ← Bool.not_eq_true] at other
      refine iff_of_false nofun fun ⟨nonempty, digits, _⟩ => ?_
      exact other.elim nonempty fun some => some (List.all_eq_true.mpr digits)
    next other =>
      rw [Bool.or_eq_true, List.isEmpty_iff, Bool.not_eq_true', ← Bool.not_eq_true, not_or,
        Decidable.not_not, List.all_eq_true] at other
      rw [valueBelow?_eq_some_iff (by decide) room, written]
      exact ⟨fun read => ⟨other.1, other.2, read⟩, fun ⟨_, _, read⟩ => read⟩

/-- The decimal digits of a number are read as the number. -/
theorem parseNat?_toDigits {bound number : Nat} (below : number < bound) :
    parseNat? bound (Nat.toDigits 10 number) = some number := by
  have digits (c : Char) (member : c ∈ Nat.toDigits 10 number) : c.isDigit = true :=
    Nat.isDigit_of_mem_toDigits (by decide) (by decide) member
  refine (parseNat?_eq_some_iff (Nat.zero_lt_of_lt below) fun plus => ?_).mpr
    ⟨Nat.toDigits_ne_nil, digits, Nat.ofDigitChars_ten_toDigits, below⟩
  exact absurd (digits '+' (List.mem_of_head? plus)) (by decide)

end Decimals

end ScriptConsole
