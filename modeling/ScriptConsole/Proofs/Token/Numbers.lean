import ScriptConsole.Proofs.Token.Spelling

/-! # Numbers in sources and in texts

A number token is a numeral as a whole, and the number that the parser reads from it is the one
that its text reads as. A text that is one numeral, without a sign and without a bare point, is one
number token.
-/

namespace ScriptConsole.Token

open Numeral

section Runs

variable {class_ : UInt8 → Bool} {run tail : List UInt8}

theorem dropWhile_run (inside : ∀ byte ∈ run, class_ byte = true)
    (ends : tail.head?.any class_ = false) : (run ++ tail).dropWhile class_ = tail := by
  have whole := List.takeWhile_append_dropWhile (p := class_) (l := run ++ tail)
  rw [takeWhile_run inside ends] at whole
  exact List.append_cancel_left whole

end Runs

section Readers

variable {text : List UInt8}

/-- Bytes that start with no sign. -/
def Unsigned (text : List UInt8) : Prop :=
  ∀ byte, text.head? = some byte → byte ≠ '-'.toUInt8 ∧ byte ≠ '+'.toUInt8

theorem Unsigned.splitSign_eq (unsigned : Unsigned text) : splitSign text = (false, text) := by
  cases text with
  | nil => rfl
  | cons byte rest =>
      obtain ⟨notMinus, notPlus⟩ := unsigned byte rfl
      rw [splitSign, if_neg notMinus, if_neg notPlus]

theorem unsigned_of_isDigit {byte : UInt8} {rest : List UInt8} (digit : isDigit byte = true) :
    Unsigned (byte :: rest) := by
  intro other same
  obtain rfl := Option.some.inj same
  constructor <;> rintro rfl <;> exact absurd digit (by decide)

/-- What a sign is split off from is the sign and the rest. -/
theorem exists_splitSign (text : List UInt8) :
    ∃ sign, IsSign sign ∧ text = sign ++ (splitSign text).2 := by
  cases text with
  | nil => exact ⟨[], .inl rfl, rfl⟩
  | cons byte rest =>
      rw [splitSign]
      by_cases minus : byte = '-'.toUInt8
      · rw [if_pos minus, minus]
        exact ⟨_, .inr (.inr rfl), rfl⟩
      rw [if_neg minus]
      by_cases plus : byte = '+'.toUInt8
      · rw [if_pos plus, plus]
        exact ⟨_, .inr (.inl rfl), rfl⟩
      · rw [if_neg plus]
        exact ⟨[], .inl rfl, rfl⟩

theorem splitSign_sign {sign digits : List UInt8} (isSign : IsSign sign) (some : digits ≠ [])
    (inside : ∀ byte ∈ digits, isDigit byte = true) : (splitSign (sign ++ digits)).2 = digits := by
  obtain ⟨digit, more, rfl⟩ := List.exists_cons_of_ne_nil some
  rcases isSign with rfl | rfl | rfl
  · have unsigned := @unsigned_of_isDigit digit more (inside digit List.mem_cons_self)
    rw [List.nil_append, unsigned.splitSign_eq]
  · rfl
  · rfl

theorem splitExponent_plain {byte : UInt8} {rest : List UInt8}
    (other : isExponentMark byte = false) : splitExponent (byte :: rest) = (0, byte :: rest) := by
  unfold isExponentMark at other
  simp only [splitExponent, other, Bool.false_eq_true, ↓reduceIte]

theorem splitExponent_marked {mark : UInt8} {rest digits after : List UInt8}
    (marked : isExponentMark mark = true) (behind : (splitSign rest).2 = digits ++ after)
    (inside : ∀ byte ∈ digits, isDigit byte = true) (ends : after.head?.any isDigit = false) :
    (splitExponent (mark :: rest)).2 = if digits = [] then mark :: rest else after := by
  unfold isExponentMark at marked
  unfold splitExponent
  simp only [marked, ↓reduceIte, behind, takeWhile_run inside ends, dropWhile_run inside ends]
  cases digits <;> rfl

/-- A power of ten is split off as a whole, and nothing else is. -/
theorem splitExponent_eq_nil : (splitExponent text).2 = [] ↔ IsExponent text := by
  constructor
  · intro whole
    cases text with
    | nil => exact .inl rfl
    | cons byte rest =>
        cases marked : isExponentMark byte with
        | false =>
            rw [splitExponent_plain marked] at whole
            contradiction
        | true =>
            obtain ⟨sign, isSign, split⟩ := exists_splitSign rest
            obtain ⟨digits, after, behind, inside, ends⟩ := exists_run isDigit (splitSign rest).2
            rw [splitExponent_marked marked behind inside ends] at whole
            by_cases none : digits = []
            · rw [if_pos none] at whole
              contradiction
            · rw [if_neg none] at whole
              rw [behind, whole, List.append_nil] at split
              exact .inr ⟨byte, sign, digits, marked, isSign, none, inside, by rw [split]⟩
  · rintro (rfl | ⟨mark, sign, digits, marked, isSign, some, inside, rfl⟩)
    · rfl
    · have behind : (splitSign (sign ++ digits)).2 = digits ++ [] := by
        rw [splitSign_sign isSign some inside, List.append_nil]
      rw [splitExponent_marked marked behind inside rfl, if_neg some]

/-- The digits of a fraction are split off behind its point. -/
theorem splitFraction_isFraction {fraction rest : List UInt8} (isFraction : IsFraction fraction)
    (notDigit : rest.head?.any isDigit = false)
    (notPoint : rest.head?.any (fun byte => byte = '.'.toUInt8) = false) :
    splitFraction (fraction ++ rest) = (fraction.drop 1, rest) := by
  rcases isFraction with rfl | ⟨digits, some, inside, rfl⟩
  · cases rest with
    | nil => rfl
    | cons byte rest =>
        have other : byte ≠ '.'.toUInt8 := by simpa using notPoint
        rw [List.nil_append, splitFraction, if_neg other]
        rfl
  · rw [List.cons_append, splitFraction, if_pos rfl, takeWhile_run inside notDigit,
      dropWhile_run inside notDigit]
    rfl

/-- If a digit follows the point, then what is split off is a fraction. -/
theorem exists_splitFraction (point : ∀ rest, text = '.'.toUInt8 :: rest →
      rest.head?.any isDigit = true) :
    ∃ fraction, IsFraction fraction ∧ text = fraction ++ (splitFraction text).2 ∧
      (splitFraction text).1 = fraction.drop 1 := by
  cases text with
  | nil => exact ⟨[], .inl rfl, rfl, rfl⟩
  | cons byte rest =>
      rw [splitFraction]
      by_cases pointed : byte = '.'.toUInt8
      · rw [if_pos pointed]
        obtain ⟨digits, after, rfl, inside, ends⟩ := exists_run isDigit rest
        rw [takeWhile_run inside ends, dropWhile_run inside ends]
        refine ⟨'.'.toUInt8 :: digits, .inr ⟨digits, ?_, inside, rfl⟩, by rw [pointed]; rfl, rfl⟩
        rintro rfl
        have head := point _ (by rw [pointed])
        rw [List.nil_append, ends] at head
        exact nomatch head
      · rw [if_neg pointed]
        exact ⟨[], .inl rfl, rfl, rfl⟩

theorem readDecimal?_eq (unsigned : Unsigned text) :
    readDecimal? text =
      if (text.takeWhile isDigit).isEmpty && (splitFraction (text.dropWhile isDigit)).1.isEmpty then
        none
      else
        some (.decimal false (text.takeWhile isDigit) (splitFraction (text.dropWhile isDigit)).1
          (splitExponent (splitFraction (text.dropWhile isDigit)).2).1,
            (splitExponent (splitFraction (text.dropWhile isDigit)).2).2) := by
  unfold readDecimal?
  rw [unsigned.splitSign_eq]

/-- A decimal number is read as a whole. -/
theorem readDecimal?_decimal {whole fraction exponent : List UInt8}
    (digits : ∀ byte ∈ whole, isDigit byte = true) (isFraction : IsFraction fraction)
    (isExponent : IsExponent exponent) (some : whole ≠ [] ∨ fraction ≠ [])
    (unsigned : Unsigned (whole ++ (fraction ++ exponent))) :
    readDecimal? (whole ++ (fraction ++ exponent)) =
      .some (.decimal false whole (fraction.drop 1) (splitExponent exponent).1, []) := by
  have ends := not_isDigit_behind isFraction isExponent stops_nil
  have behind := head_exponent isExponent stops_nil
  rw [List.append_nil] at ends behind
  rw [readDecimal?_eq unsigned, takeWhile_run digits ends, dropWhile_run digits ends,
    splitFraction_isFraction isFraction behind.1 behind.2, splitExponent_eq_nil.mpr isExponent]
  refine if_neg fun none => ?_
  rw [Bool.and_eq_true, List.isEmpty_iff, List.isEmpty_iff] at none
  rcases isFraction with rfl | ⟨more, nonempty, _, rfl⟩
  · exact some.elim (fun other => other none.1) fun other => other rfl
  · exact nonempty none.2

/-- What is read as a decimal number as a whole is one, if a digit follows its point. -/
theorem isNumber_of_readDecimal {numeral : Numeral} (unsigned : Unsigned text)
    (point : ∀ before after, text = before ++ '.'.toUInt8 :: after →
      after.head?.any isDigit = true)
    (read : readDecimal? text = some (numeral, [])) : IsNumber text := by
  obtain ⟨whole, rest, rfl, digits, ends⟩ := exists_run isDigit text
  obtain ⟨fraction, isFraction, split, same⟩ := @exists_splitFraction rest fun more here =>
    point whole more (by rw [here])
  rw [readDecimal?_eq unsigned, takeWhile_run digits ends, dropWhile_run digits ends] at read
  split at read
  · contradiction
  next some =>
    have last : (splitExponent (splitFraction rest).2).2 = [] :=
      (Prod.mk.inj (Option.some.inj read)).2
    rw [split]
    refine .decimal digits isFraction (splitExponent_eq_nil.mp last) ?_
    refine Classical.byContradiction fun none => some ?_
    obtain ⟨rfl, rfl⟩ : whole = [] ∧ fraction = [] := by
      simpa only [not_or, ne_eq, Decidable.not_not] using none
    rw [same]
    rfl

/-- Hexadecimal digits are read to the end. -/
theorem readHex?_hex {x : UInt8} {digits : List UInt8} (mark : x = 'x'.toUInt8 ∨ x = 'X'.toUInt8)
    (some : digits ≠ []) (inside : ∀ byte ∈ digits, isHexDigit byte = true) :
    readHex? ('0'.toUInt8 :: x :: digits) = .some (.hex false digits, []) := by
  have marked : (x = 'x'.toUInt8 || x = 'X'.toUInt8) = true := by
    rw [Bool.or_eq_true, decide_eq_true_eq, decide_eq_true_eq]
    exact mark
  have run := @takeWhile_run isHexDigit digits [] inside rfl
  have left := @dropWhile_run isHexDigit digits [] inside rfl
  rw [List.append_nil] at run left
  unfold readHex?
  rw [(unsigned_of_isDigit rfl : Unsigned ('0'.toUInt8 :: x :: digits)).splitSign_eq]
  simp only [marked, decide_true, Bool.and_self, ↓reduceIte, run, left]

/-- What is read as a hexadecimal number is marked as one. -/
theorem exists_of_readHex {numeral : Numeral} {after : List UInt8} (unsigned : Unsigned text)
    (read : readHex? text = some (numeral, after)) : ∃ x digits,
      (x = 'x'.toUInt8 ∨ x = 'X'.toUInt8) ∧ digits ≠ [] ∧
        (∀ byte ∈ digits, isHexDigit byte = true) ∧
        text = '0'.toUInt8 :: x :: (digits ++ after) ∧ numeral = .hex false digits := by
  unfold readHex? at read
  rw [unsigned.splitSign_eq] at read
  dsimp only at read
  split at read
  next _ zero x rest =>
    split at read
    next marked =>
      rw [Bool.and_eq_true, decide_eq_true_eq, Bool.or_eq_true, decide_eq_true_eq,
        decide_eq_true_eq] at marked
      obtain ⟨rfl, mark⟩ := marked
      obtain ⟨digits, tail, rfl, inside, ends⟩ := exists_run isHexDigit rest
      rw [takeWhile_run inside ends, dropWhile_run inside ends] at read
      split at read
      · exact nomatch read
      next nonempty =>
        obtain ⟨rfl, rfl⟩ := Prod.mk.inj (Option.some.inj read)
        exact ⟨x, digits, mark, nonempty, inside, rfl, rfl⟩
    next => contradiction
  next => contradiction

theorem readHex?_eq_none (unsigned : Unsigned text) (notHex : ¬ IsHexMark text) :
    readHex? text = none := by
  cases read : readHex? text with
  | none => rfl
  | some result =>
      obtain ⟨x, digits, mark, _, _, rfl, _⟩ := exists_of_readHex unsigned read
      exact absurd ⟨x, _, rfl, mark⟩ notHex

/-- A number starts with no sign. -/
theorem IsNumber.unsigned (isNumber : IsNumber text) : Unsigned text := by
  obtain ⟨first, body, rfl, start⟩ := isNumber.exists_start
  intro byte same
  obtain rfl := Option.some.inj same
  have here := start []
  constructor <;> rintro rfl <;> exact absurd here Bool.false_ne_true

/-- The numeral that a number is. -/
theorem IsNumber.read?_eq (isNumber : IsNumber text) :
    (∃ x digits, (x = 'x'.toUInt8 ∨ x = 'X'.toUInt8) ∧ text = '0'.toUInt8 :: x :: digits ∧
      readHex? text = some (.hex false digits, [])) ∨
    ¬ IsHexMark text ∧ readHex? text = none ∧
      ∃ numeral, readDecimal? text = some (numeral, []) := by
  have unsigned := isNumber.unsigned
  cases isNumber with
  | hex mark some inside => exact .inl ⟨_, _, mark, rfl, readHex?_hex mark some inside⟩
  | decimal digits isFraction isExponent some =>
      have notHex := not_isHexMark_decimal digits isFraction isExponent stops_nil
      rw [List.append_nil] at notHex
      exact .inr ⟨notHex, readHex?_eq_none unsigned notHex,
        _, readDecimal?_decimal digits isFraction isExponent some unsigned⟩

end Readers

section Texts

variable {text : String}

theorem numeralBytes_eq (blankless : ∀ c ∈ text.toList, Text.isBlank c = false) :
    numeralBytes text = Utf8.encode text :=
  congrArg Utf8.encodeChars (Text.dropWhile_blankless blankless)

/-- Without white space a text is a number if one of the readers takes all of its bytes. -/
theorem isNumeric_iff (blankless : ∀ c ∈ text.toList, Text.isBlank c = false) :
    isNumeric text = true ↔
      (∃ numeral, readHex? (Utf8.encode text) = some (numeral, [])) ∨
        ∃ numeral, readDecimal? (Utf8.encode text) = some (numeral, []) := by
  have taken {read : Option (Numeral × List UInt8)} {numeral : Numeral} {rest : List UInt8}
      (found : read = some (numeral, rest)) :
      rest.isEmpty = true ↔ ∃ numeral, read = some (numeral, []) := by
    rw [List.isEmpty_iff, found]
    constructor
    · rintro rfl
      exact ⟨numeral, rfl⟩
    · rintro ⟨other, same⟩
      exact (Prod.mk.inj (Option.some.inj same)).2
  have missed {read : Option (Numeral × List UInt8)} (none : read = .none) :
      false = true ↔ ∃ numeral, read = some (numeral, []) := by
    rw [none]
    exact iff_of_false nofun nofun
  unfold isNumeric
  rw [Text.trim_blankless blankless]
  dsimp only
  rw [Bool.or_eq_true]
  apply or_congr
  · split
    next found => exact taken found
    next none => exact missed none
  · split
    next found => exact taken found
    next none => exact missed none

theorem isBlank_ofNat {byte : UInt8} (low : 0x21 ≤ byte.toNat) (high : byte.toNat < 0x80) :
    Text.isBlank (Char.ofNat byte.toNat) = false := by
  have code : (Char.ofNat byte.toNat).toNat = byte.toNat := Utf8.val_ofNat (.inl (by omega))
  rw [← Bool.not_eq_true]
  unfold Text.isBlank
  simp only [code, Bool.or_eq_true, Bool.and_eq_true, decide_eq_true_eq, beq_iff_eq]
  omega

theorem bounds_of_isDigit {byte : UInt8} (digit : isDigit byte = true) :
    0x21 ≤ byte.toNat ∧ byte.toNat < 0x80 := by
  simp only [isDigit, Bool.and_eq_true, decide_eq_true_eq, UInt8.le_iff_toNat_le] at digit
  have low : '0'.toUInt8.toNat = 48 := rfl
  have high : '9'.toUInt8.toNat = 57 := rfl
  omega

/-- Hexadecimal digits are printable ASCII characters. -/
theorem bounds_of_isHexDigit {byte : UInt8} (digit : isHexDigit byte = true) :
    0x21 ≤ byte.toNat ∧ byte.toNat < 0x80 := by
  unfold isHexDigit hexDigit? at digit
  simp only [Bool.and_eq_true, decide_eq_true_eq] at digit
  split at digit
  · omega
  · split at digit
    · omega
    · split at digit
      · omega
      · contradiction

/-- The bytes of a number are ASCII and neither blank nor below. -/
theorem IsNumber.bounds {text : List UInt8} (isNumber : IsNumber text) :
    ∀ byte ∈ text, 0x21 ≤ byte.toNat ∧ byte.toNat < 0x80 := by
  have run {digits : List UInt8} (inside : ∀ byte ∈ digits, isDigit byte = true) :
      ∀ byte ∈ digits, 0x21 ≤ byte.toNat ∧ byte.toNat < 0x80 :=
    fun byte member => bounds_of_isDigit (inside byte member)
  cases isNumber with
  | @hex x _ mark _ inside =>
      have marked : 0x21 ≤ x.toNat ∧ x.toNat < 0x80 := by
        rcases mark with rfl | rfl <;> decide
      exact List.forall_mem_cons.mpr ⟨by decide, List.forall_mem_cons.mpr
        ⟨marked, fun byte member => bounds_of_isHexDigit (inside byte member)⟩⟩
  | decimal digits isFraction isExponent _ =>
      refine List.forall_mem_append.mpr ⟨run digits, List.forall_mem_append.mpr ⟨?_, ?_⟩⟩
      · rcases isFraction with rfl | ⟨digits, _, inside, rfl⟩
        · exact List.forall_mem_nil _
        · exact List.forall_mem_cons.mpr ⟨by decide, run inside⟩
      · rcases isExponent with rfl | ⟨mark, sign, digits, marked, isSign, _, inside, rfl⟩
        · exact List.forall_mem_nil _
        · refine List.forall_mem_cons.mpr ⟨?_, List.forall_mem_append.mpr ⟨?_, run inside⟩⟩
          · unfold isExponentMark at marked
            rw [Bool.or_eq_true, decide_eq_true_eq, decide_eq_true_eq] at marked
            rcases marked with rfl | rfl <;> decide
          · rcases isSign with rfl | rfl | rfl
            · exact List.forall_mem_nil _
            · exact List.forall_mem_singleton.mpr (by decide)
            · exact List.forall_mem_singleton.mpr (by decide)

/-- A number as a text has its bytes and no white space. -/
theorem IsNumber.ofAscii {bytes : List UInt8} (isNumber : IsNumber bytes) :
    Utf8.encode (Utf8.ofAscii bytes) = bytes ∧
      ∀ c ∈ (Utf8.ofAscii bytes).toList, Text.isBlank c = false := by
  refine ⟨Utf8.encode_ofAscii fun byte member => (isNumber.bounds byte member).2, ?_⟩
  unfold Utf8.ofAscii
  rw [String.toList_ofList]
  refine List.forall_mem_map.mpr fun byte member => ?_
  obtain ⟨low, high⟩ := isNumber.bounds byte member
  exact isBlank_ofNat low high

end Texts

section Values

/-- The word of hexadecimal digits is their value modulo its size. -/
theorem hexWord_eq (digits : List UInt8) : hexWord digits =
    Int64.ofNat ((digits.map hexDigitValue).foldl (fun value digit => value * 16 + digit) 0) := by
  have words (digits : List UInt8) (value : Nat) :
      digits.foldl (fun word byte => word * 16 + Int64.ofNat (hexDigitValue byte))
        (Int64.ofNat value) =
      Int64.ofNat
        ((digits.map hexDigitValue).foldl (fun value digit => value * 16 + digit) value) := by
    induction digits generalizing value with
    | nil => rfl
    | cons byte digits ih =>
        have step : Int64.ofNat value * 16 + Int64.ofNat (hexDigitValue byte) =
            Int64.ofNat (value * 16 + hexDigitValue byte) := by
          rw [Int64.ofNat_add, Int64.ofNat_mul]
          rfl
        rw [List.foldl_cons, List.map_cons, List.foldl_cons, step, ih]
  exact words digits 0

theorem integerValue?_eq_some {text : List UInt8} {value : Nat}
    (read : integerValue? text = some value) :
    text.all isDigit = true ∧ digitsValue text = value ∧ value < Nat.pow 2 63 := by
  unfold integerValue? at read
  split at read
  next all =>
    obtain ⟨same, below⟩ := (valueBelow?_eq_some_iff (by decide) (by decide)).mp read
    rw [List.foldl_map] at same
    exact ⟨all, same, below⟩
  next => contradiction

theorem integerValue?_of_lt {text : List UInt8} (all : text.all isDigit = true)
    (below : digitsValue text < Nat.pow 2 63) : integerValue? text = some (digitsValue text) := by
  have same : (text.map digitValue).foldl (fun value digit => value * 10 + digit) 0 =
      digitsValue text := List.foldl_map
  unfold integerValue?
  rw [if_pos all, (valueBelow?_eq_some_iff (by decide) (by decide)).mpr ⟨same, below⟩]

/-- A literal is the number that a text reads as: the integer of its hexadecimal digits or, if it
fits, of its decimal digits, and else the float that is nearest. -/
structure Denotes (text : List UInt8) (literal : Literal) : Prop where
  hex : ∀ x digits, (x = 'x'.toUInt8 ∨ x = 'X'.toUInt8) → text = '0'.toUInt8 :: x :: digits →
    literal = .int (hexWord digits) ∧
      parseNumber (Utf8.ofAscii text) = Binary64.ofInt (hexWord digits).toInt
  digits : text.all isDigit = true → digitsValue text < Nat.pow 2 63 →
    literal = .int (Int64.ofNat (digitsValue text))
  other : ¬ IsHexMark text → ¬ (text.all isDigit = true ∧ digitsValue text < Nat.pow 2 63) →
    ∃ numeral, readDecimal? text = some (numeral, []) ∧ literal = .float numeral.toFloat ∧
      parseNumber (Utf8.ofAscii text) = numeral.toFloat

theorem parseNumber_ofAscii {text : List UInt8} {numeral : Numeral} (isNumber : IsNumber text)
    (read : Numeral.read? text = some (numeral, [])) :
    parseNumber (Utf8.ofAscii text) = numeral.toFloat := by
  obtain ⟨spelled, blankless⟩ := isNumber.ofAscii
  unfold parseNumber
  rw [numeralBytes_eq blankless, spelled, read]

/-- The parser takes a number for what its text reads as, or it is hexadecimal and too large. -/
theorem numberValue_denotes {text : List UInt8} (isNumber : IsNumber text) :
    (∃ literal, numberValue text = .ok literal ∧ Denotes text literal) ∨
      numberValue text = .error .hexTooLarge ∧ IsHexMark text := by
  rcases isNumber.read?_eq with ⟨x, digits, mark, rfl, read⟩ | ⟨notHex, missed, numeral, read⟩
  · have marked : (x = 'x'.toUInt8 || x = 'X'.toUInt8) = true := by
      rw [Bool.or_eq_true, decide_eq_true_eq, decide_eq_true_eq]
      exact mark
    have whole : Numeral.read? ('0'.toUInt8 :: x :: digits) = some (.hex false digits, []) := by
      rw [Numeral.read?, read, Option.some_or]
    have value := parseNumber_ofAscii isNumber whole
    unfold numberValue
    simp only [marked, decide_true, Bool.and_self, ↓reduceIte]
    cases found : valueBelow? (Nat.pow 2 63) 16 (digits.map hexDigitValue) with
    | none => exact .inr ⟨rfl, x, digits, rfl, mark⟩
    | some number =>
        obtain ⟨same, -⟩ := (valueBelow?_eq_some_iff (by decide) (by decide)).mp found
        refine .inl ⟨_, rfl, fun _ _ _ same' => ?_, fun all _ => ?_, fun notHex => ?_⟩
        · obtain ⟨-, later⟩ := List.cons.inj same'
          obtain ⟨-, rfl⟩ := List.cons.inj later
          rw [hexWord_eq, same, ← same, ← hexWord_eq]
          exact ⟨rfl, value⟩
        · have digit := List.all_eq_true.mp all x (List.mem_cons_of_mem _ List.mem_cons_self)
          rcases mark with rfl | rfl <;> exact absurd digit (by decide)
        · exact absurd ⟨x, digits, rfl, mark⟩ notHex
  · have whole : Numeral.read? text = some (numeral, []) := by
      rw [Numeral.read?, missed, Option.none_or, read]
    have value := parseNumber_ofAscii isNumber whole
    left
    rw [numberValue_decimal notHex]
    unfold numberValue.decimalValue
    cases found : integerValue? text with
    | some number =>
        obtain ⟨all, same, below⟩ := integerValue?_eq_some found
        rw [← same] at below
        refine ⟨_, rfl, fun x digits mark split => absurd ⟨x, digits, split, mark⟩ notHex,
          fun _ _ => by rw [same], fun _ large => absurd ⟨all, below⟩ large⟩
    | none =>
        simp only [read]
        refine ⟨_, rfl, fun x digits mark split => absurd ⟨x, digits, split, mark⟩ notHex,
          fun all below => ?_, fun _ _ => ⟨numeral, read, rfl, value⟩⟩
        rw [integerValue?_of_lt all below] at found
        contradiction

end Values

section Tokens

/-- A number that is next is passed with its value, or refused. -/
theorem number_apply {span : Span} {text : List UInt8} {rest : List Token} {state : ParseState}
    (next : state.tokens = ⟨.number, span, text⟩ :: rest) :
    (∀ literal, numberValue text = .ok literal →
      ∃ final, Parse.number state = .ok (literal, span) final) ∧
    ∀ complaint, numberValue text = .error complaint →
      ∃ final, Parse.number state = .error ⟨span.first, complaint⟩ final := by
  let token : Token := ⟨.number, span, text⟩
  let after : ParseState := { state with tokens := rest, passed := span.last }
  have peek : Parse.next? state = .ok (some token) state := by
    cases state
    subst next
    rfl
  have passed : Parse.pass state = .ok () after := by
    cases state
    subst next
    rfl
  constructor
  · intro literal value
    refine ⟨after, ?_⟩
    rw [Parse.number, Parse.bind_of_ok peek]
    dsimp only [token]
    rw [if_pos rfl, Parse.bind_of_ok passed, value]
    rfl
  · intro complaint value
    refine ⟨after, ?_⟩
    rw [Parse.number, Parse.bind_of_ok peek]
    dsimp only [token]
    rw [if_pos rfl, Parse.bind_of_ok passed, value]
    rfl

/-- Only what starts like a number is taken for one. -/
theorem start_of_number {first : UInt8} {rest : List UInt8} {length : Nat}
    (taken : piece first rest = .ok (.token .number, length)) :
    (isDigit first || first = '.'.toUInt8 && rest.head?.any isDigit) = true := by
  refine Classical.byContradiction fun other => ?_
  unfold piece stringPiece at taken
  simp only [other, Bool.false_eq_true, ↓reduceIte] at taken
  repeat' split at taken
  all_goals first | contradiction | exact nomatch (Prod.mk.inj (Except.ok.inj taken)).1

/-- A number token is taken for a number text. -/
theorem isNumber_of_taken {first : UInt8} {body rest : List UInt8}
    (taken : piece first (body ++ rest) = .ok (.token .number, body.length + 1)) :
    IsNumber (first :: body) := by
  have start := start_of_number taken
  rw [piece_number start] at taken
  cases measured : numberLength (first :: (body ++ rest)) with
  | error ahead =>
      rw [measured] at taken
      contradiction
  | ok length =>
      rw [measured] at taken
      obtain ⟨-, rfl⟩ := Prod.mk.inj (Except.ok.inj taken)
      obtain ⟨text, after, split, long, isNumber⟩ := exists_number start measured
      rw [← List.cons_append] at split
      rw [(List.append_inj split (by rw [long]; rfl)).1]
      exact isNumber

/-- A number means the same in a source as in a text. Every number token is one numeral, and what
the parser takes it for is what its text reads as. A text that is one numeral, without a sign and
with a digit behind its point, is one number token. -/
theorem numbers_agree :
    (∀ {bytes tokens}, scan bytes = .ok tokens → ∀ token ∈ tokens, token.kind = .number →
      Utf8.encode (Utf8.ofAscii token.text) = token.text ∧
      isNumeric (Utf8.ofAscii token.text) = true ∧
      (∃ numeral, Numeral.read? (numeralBytes (Utf8.ofAscii token.text)) = some (numeral, [])) ∧
      ∀ (state : ParseState) (rest : List Token), state.tokens = token :: rest →
        (∃ literal final, Parse.number state = .ok (literal, token.span) final ∧
          Denotes token.text literal) ∨
        ∃ final, Parse.number state = .error ⟨token.span.first, .hexTooLarge⟩ final ∧
          IsHexMark token.text) ∧
    ∀ {text : String}, (∀ c ∈ text.toList, Text.isBlank c = false) → Unsigned (Utf8.encode text) →
      (∀ before after, Utf8.encode text = before ++ '.'.toUInt8 :: after →
        after.head?.any isDigit = true) →
      isNumeric text = true → scan (Utf8.encode text) = .ok [lone .number (Utf8.encode text)] := by
  constructor
  · rintro bytes tokens accepted ⟨_, span, text⟩ member rfl
    obtain ⟨first, body, rest, spelled, taken⟩ := (laid_of_scan accepted).1.taken member
    have isNumber : IsNumber text := by
      rw [show text = first :: body from spelled]
      exact isNumber_of_taken taken
    obtain ⟨encoded, blankless⟩ := isNumber.ofAscii
    refine ⟨encoded, ?_, ?_, fun state rest next => ?_⟩
    · rw [isNumeric_iff blankless, encoded]
      rcases isNumber.read?_eq with ⟨_, digits, _, _, read⟩ | ⟨_, _, read⟩
      · exact .inl ⟨_, read⟩
      · exact .inr read
    · rw [numeralBytes_eq blankless, encoded, Numeral.read?]
      rcases isNumber.read?_eq with ⟨_, digits, _, _, read⟩ | ⟨_, missed, numeral, read⟩
      · exact ⟨_, by rw [read, Option.some_or]⟩
      · exact ⟨numeral, by rw [missed, Option.none_or, read]⟩
    · obtain ⟨accepts, refuses⟩ := number_apply next
      rcases numberValue_denotes isNumber with ⟨literal, value, denotes⟩ | ⟨value, marked⟩
      · obtain ⟨final, ran⟩ := accepts literal value
        exact .inl ⟨literal, final, ran, denotes⟩
      · obtain ⟨final, ran⟩ := refuses _ value
        exact .inr ⟨final, ran, marked⟩
  · intro text blankless unsigned point numeric
    have isNumber : IsNumber (Utf8.encode text) := by
      rcases (isNumeric_iff blankless).mp numeric with ⟨numeral, read⟩ | ⟨numeral, read⟩
      · obtain ⟨x, digits, mark, some, inside, spelled, -⟩ := exists_of_readHex unsigned read
        rw [spelled, List.append_nil]
        exact .hex mark some inside
      · exact isNumber_of_readDecimal unsigned point read
    exact (written_of_isNumber isNumber).scan_eq

/-- A float with a point and a power of ten, and a source that adds a word of 16 digits to it. -/
theorem numbers_agree_hex :
    scan (Utf8.encode ".5e-3") = .ok [lone .number (Utf8.encode ".5e-3")] ∧
      ∃ tokens, scan (Utf8.encode "0x7fffFFFFffffffff+.5e-3") = .ok tokens ∧
        ∃ token ∈ tokens, token.kind = .number ∧ isNumeric (Utf8.ofAscii token.text) = true := by
  have spelled : Utf8.encode ".5e-3" = '.'.toUInt8 :: Utf8.encode "5e-3" := by decide +kernel
  have once : '.'.toUInt8 ∉ Utf8.encode "5e-3" := by decide +kernel
  have some : (scan (Utf8.encode "0x7fffFFFFffffffff+.5e-3")).toOption.any
      (fun tokens => tokens.any (·.kind = .number)) = true := by
    decide +kernel
  have blankless : (".5e-3".toList.all fun c => Text.isBlank c = false) = true := by decide +kernel
  refine ⟨numbers_agree.2 (fun c member => of_decide_eq_true
    (List.all_eq_true.mp blankless c member)) ?_ ?_ (by decide +kernel), ?_⟩
  · rw [spelled]
    intro byte head
    obtain rfl := Option.some.inj head
    decide
  · intro before after split
    rw [spelled] at split
    cases before with
    | nil =>
        rw [← (List.cons.inj split).2]
        decide +kernel
    | cons byte before =>
        rw [(List.cons.inj split).2] at once
        exact absurd (List.mem_append_right before List.mem_cons_self) once
  · cases accepted : scan (Utf8.encode "0x7fffFFFFffffffff+.5e-3") with
    | error fault =>
        rw [accepted] at some
        contradiction
    | ok tokens =>
        rw [accepted] at some
        obtain ⟨token, member, kind⟩ := List.any_eq_true.mp some
        have number : token.kind = .number := of_decide_eq_true kind
        exact ⟨tokens, rfl, token, member, number,
          (numbers_agree.1 accepted token member number).2.1⟩

end Tokens

end ScriptConsole.Token
