import ScriptConsole.Token.Scan

/-! # Lengths that white space does not change

The scanner measures the name, the number, the string or the punctuation at the start of
bytes. What it measured has the same length when white space or the end comes after it
(`ScriptConsole.Token.Firm`).
-/

namespace ScriptConsole.Token

/-- The bytes are over, or go on with white space. -/
def Stops (tail : List UInt8) : Prop :=
  ∀ byte, tail.head? = some byte → isSpace byte = true

section Bytes

theorem isSpace_cases {byte : UInt8} (space : isSpace byte = true) :
    byte = ' '.toUInt8 ∨ byte = '\t'.toUInt8 ∨ byte = '\n'.toUInt8 ∨ byte = '\x0C'.toUInt8 ∨
      byte = '\r'.toUInt8 := by
  simpa only [isSpace, Bool.or_eq_true, decide_eq_true_eq, or_assoc] using space

/-- A class of bytes has no white space in it. -/
def Inky (class_ : UInt8 → Bool) : Prop :=
  ∀ byte, isSpace byte = true → class_ byte = false

theorem Inky.isSpace_eq_false {class_ : UInt8 → Bool} (inky : Inky class_) {byte : UInt8}
    (member : class_ byte = true) : isSpace byte = false := by
  rw [← Bool.not_eq_true]
  intro space
  rw [inky byte space] at member
  contradiction

theorem inky_isNameStart : Inky isNameStart := by
  intro byte space
  rcases isSpace_cases space with rfl | rfl | rfl | rfl | rfl <;> decide

theorem inky_isNameRest : Inky isNameRest := by
  intro byte space
  rcases isSpace_cases space with rfl | rfl | rfl | rfl | rfl <;> decide

theorem inky_isDigit : Inky isDigit := by
  intro byte space
  rcases isSpace_cases space with rfl | rfl | rfl | rfl | rfl <;> decide

theorem inky_isHexDigit : Inky isHexDigit := by
  intro byte space
  rcases isSpace_cases space with rfl | rfl | rfl | rfl | rfl <;> decide

/-- A byte that is not white space. -/
theorem inky_eq {byte : UInt8} (inky : isSpace byte = false) : Inky fun other => other = byte := by
  intro other space
  rw [decide_eq_false_iff_not]
  rintro rfl
  rw [inky] at space
  contradiction

theorem Stops.any_head {tail : List UInt8} (stops : Stops tail) {class_ : UInt8 → Bool}
    (inky : Inky class_) : tail.head?.any class_ = false := by
  cases head : tail.head? with
  | none => rfl
  | some byte => exact inky byte (stops byte head)

/-- A run of bytes of a class ends where a byte of another class comes. -/
theorem takeWhile_run {class_ : UInt8 → Bool} {run tail : List UInt8}
    (inside : ∀ byte ∈ run, class_ byte = true) (ends : tail.head?.any class_ = false) :
    (run ++ tail).takeWhile class_ = run := by
  rw [List.takeWhile_append_of_pos inside]
  have nothing : tail.takeWhile class_ = [] := by
    cases tail with
    | nil => rfl
    | cons byte rest => exact List.takeWhile_cons_of_neg (by simpa using ends)
  rw [nothing, List.append_nil]

/-- Bytes start with a run of a class, which may be empty. -/
theorem exists_run (class_ : UInt8 → Bool) (bytes : List UInt8) :
    ∃ run tail, bytes = run ++ tail ∧ (∀ byte ∈ run, class_ byte = true) ∧
      tail.head?.any class_ = false := by
  induction bytes with
  | nil => exact ⟨[], [], rfl, fun _ member => absurd member List.not_mem_nil, rfl⟩
  | cons byte bytes ih =>
      by_cases member : class_ byte = true
      · obtain ⟨run, tail, split, inside, ends⟩ := ih
        refine ⟨byte :: run, tail, by rw [split, List.cons_append], ?_, ends⟩
        intro other within
        rcases List.mem_cons.mp within with rfl | later
        · exact member
        · exact inside other later
      · refine ⟨[], byte :: bytes, rfl, fun _ member => absurd member List.not_mem_nil, ?_⟩
        simpa using member

theorem spaceless_of_inky {class_ : UInt8 → Bool} (inky : Inky class_) {run : List UInt8}
    (inside : ∀ byte ∈ run, class_ byte = true) : ∀ byte ∈ run, isSpace byte = false :=
  fun byte member => inky.isSpace_eq_false (inside byte member)

theorem spaceless_of_any {run : List UInt8} (none : run.any isSpace = false) :
    ∀ byte ∈ run, isSpace byte = false :=
  fun byte member => Bool.not_eq_true _ ▸ List.any_eq_false.mp none byte member

end Bytes

/-- A length is firm on bytes if the piece of this length keeps it when something else
comes after it that stops, and if the piece has no white space in it. -/
structure Firm (length : List UInt8 → Nat) (bytes : List UInt8) : Prop where
  cut : ∃ text after, bytes = text ++ after ∧ text.length = length bytes ∧
    (∀ byte ∈ text, isSpace byte = false) ∧ ∀ tail, Stops tail → length (text ++ tail) = text.length

section Names

theorem nameLength_run {run tail : List UInt8} (inside : ∀ byte ∈ run, isNameRest byte = true)
    (ends : tail.head?.any isNameRest = false) : nameLength (run ++ tail) = run.length := by
  unfold nameLength
  rw [takeWhile_run inside ends]

theorem firm_nameLength (bytes : List UInt8) : Firm nameLength bytes := by
  obtain ⟨run, after, rfl, inside, ends⟩ := exists_run isNameRest bytes
  refine ⟨run, after, rfl, (nameLength_run inside ends).symm,
    spaceless_of_inky inky_isNameRest inside, ?_⟩
  intro tail stops
  exact nameLength_run inside (stops.any_head inky_isNameRest)

theorem identifierLength_switch (tail : List UInt8) :
    identifierLength (switchWord ++ '$'.toUInt8 :: tail) = 7 := by
  have run : nameLength (switchWord ++ '$'.toUInt8 :: tail) = 6 :=
    nameLength_run (List.all_eq_true.mp (by decide +kernel)) rfl
  unfold identifierLength
  rw [run]
  rfl

/-- The length of an identifier is seen from its own bytes, whatever stops behind it. -/
theorem firm_identifierLength (bytes : List UInt8) : Firm identifierLength bytes := by
  obtain ⟨run, after, rfl, inside, ends⟩ := exists_run isNameRest bytes
  have named : nameLength (run ++ after) = run.length := nameLength_run inside ends
  by_cases marked : run = switchWord ∧ after.head? = some '$'.toUInt8
  · obtain ⟨rfl, dollar⟩ := marked
    obtain ⟨rest, rfl⟩ : ∃ rest, after = '$'.toUInt8 :: rest := by
      cases after with
      | nil => exact nomatch dollar
      | cons byte rest => exact ⟨rest, by rw [Option.some.inj dollar]⟩
    refine ⟨switchWord ++ ['$'.toUInt8], rest, by rw [List.append_assoc]; rfl, ?_,
      spaceless_of_any (by decide +kernel), ?_⟩
    · rw [identifierLength_switch]
      rfl
    · intro tail _
      rw [List.append_assoc, List.singleton_append, identifierLength_switch]
      rfl
  · have plain (tail : List UInt8) (stop : tail.head?.any isNameRest = false)
        (other : ¬ (run = switchWord ∧ tail.head? = some '$'.toUInt8)) :
        identifierLength (run ++ tail) = run.length := by
      unfold identifierLength
      rw [nameLength_run inside stop]
      simp only [List.take_left, List.getElem?_append_right (Nat.le_refl _), Nat.sub_self,
        ← List.head?_eq_getElem?, Bool.and_eq_true, decide_eq_true_eq, other, ↓reduceIte]
    refine ⟨run, after, rfl, (plain after ends marked).symm,
      spaceless_of_inky inky_isNameRest inside, ?_⟩
    intro tail stops
    refine plain tail (stops.any_head inky_isNameRest) ?_
    rintro ⟨_, dollar⟩
    exact absurd (stops _ dollar) (by decide)

/-- No further segment of a name begins where bytes stop. -/
theorem segmentsLength_stop {tail : List UInt8} (stops : Stops tail) : segmentsLength tail = 0 := by
  cases tail with
  | nil => rfl
  | cons byte rest =>
      have space := stops byte rfl
      have other : isNameRest byte = false := inky_isNameRest byte space
      have notColon : byte ≠ ':'.toUInt8 := by
        rintro rfl
        exact absurd space (by decide)
      rw [segmentsLength.eq_def]
      simp only [other, notColon, Bool.false_eq_true, ↓reduceIte]

theorem segmentsLength_colons {rest : List UInt8} (named : rest.head?.any isNameStart = true) :
    segmentsLength (':'.toUInt8 :: ':'.toUInt8 :: rest) = segmentsLength rest + 2 := by
  have colon : isNameRest ':'.toUInt8 = false := by decide
  rw [segmentsLength.eq_def]
  simp only [colon, named, Bool.false_eq_true, ↓reduceIte, decide_true, Bool.and_self]

/-- The segments of a name are empty where none starts. -/
theorem firm_of_segmentsLength_eq_zero {bytes : List UInt8} (none : segmentsLength bytes = 0) :
    Firm segmentsLength bytes :=
  ⟨[], bytes, rfl, none.symm, fun _ member => absurd member List.not_mem_nil,
    fun _ stops => segmentsLength_stop stops⟩

/-- The length of the further segments of a name is seen from their own bytes. The induction is on
how many bytes there are, as a segment is behind its colons. -/
theorem firm_segmentsLength (bytes : List UInt8) : Firm segmentsLength bytes := by
  -- By induction along the recursion: a segment goes on, or two colons start another one.
  induction bytes using segmentsLength.induct with
  | case1 => exact firm_of_segmentsLength_eq_zero rfl
  | case2 byte rest named ih =>
      obtain ⟨text, after, rfl, length, spaceless, firm⟩ := ih
      have more (tail : List UInt8) :
          segmentsLength (byte :: tail) = segmentsLength tail + 1 := by
        rw [segmentsLength.eq_def]
        simp only [named, ↓reduceIte]
      refine ⟨byte :: text, after, rfl, by rw [more, List.length_cons, length], ?_, ?_⟩
      · exact List.forall_mem_cons.mpr ⟨inky_isNameRest.isSpace_eq_false named, spaceless⟩
      · intro tail stops
        rw [List.cons_append, more, firm tail stops, List.length_cons]
  | case3 => exact firm_of_segmentsLength_eq_zero rfl
  | case4 second rest colons _ ih =>
      rw [Bool.and_eq_true, decide_eq_true_eq] at colons
      obtain ⟨rfl, named⟩ := colons
      obtain ⟨text, after, rfl, length, spaceless, firm⟩ := ih
      -- The next segment is not empty, so it starts as before whatever comes after it.
      obtain ⟨first, more, rfl⟩ : ∃ first more, text = first :: more := by
        cases text with
        | cons first more => exact ⟨first, more, rfl⟩
        | nil =>
            cases after with
            | nil => exact nomatch named
            | cons byte rest =>
                have start : isNameStart byte = true := by simpa using named
                rw [List.nil_append, segmentsLength.eq_def] at length
                simp only [isNameRest, start, Bool.true_or, ↓reduceIte, List.length_nil] at length
                omega
      have start : isNameStart first = true := by simpa using named
      refine ⟨':'.toUInt8 :: ':'.toUInt8 :: first :: more, after, rfl, ?_, ?_, ?_⟩
      · rw [segmentsLength_colons named, ← length]
        rfl
      · have colon : isSpace ':'.toUInt8 = false := by decide
        exact List.forall_mem_cons.mpr ⟨colon, List.forall_mem_cons.mpr ⟨colon, spaceless⟩⟩
      · intro tail stops
        have again : ((first :: more) ++ tail).head?.any isNameStart = true := by
          simpa using start
        rw [List.cons_append, List.cons_append, segmentsLength_colons again, firm tail stops]
        rfl
  | case5 second rest other _ =>
      refine firm_of_segmentsLength_eq_zero ?_
      have colon : isNameRest ':'.toUInt8 = false := by decide
      rw [segmentsLength.eq_def]
      simp only [colon, other, Bool.false_eq_true, ↓reduceIte]
  | case6 byte rest other notColon =>
      refine firm_of_segmentsLength_eq_zero ?_
      rw [segmentsLength.eq_def]
      simp only [other, notColon, Bool.false_eq_true, ↓reduceIte]

end Names

section Numbers

/-- There is no fraction without a point. -/
theorem fractionLength_eq_zero {bytes : List UInt8}
    (other : bytes.head?.any (fun byte => byte = '.'.toUInt8) = false) :
    fractionLength bytes = 0 := by
  cases bytes with
  | nil => rfl
  | cons byte rest =>
      have notPoint : byte ≠ '.'.toUInt8 := by simpa using other
      rw [fractionLength]
      split
      · rfl
      · rw [if_neg notPoint]

theorem fractionLength_digits {digits tail : List UInt8} (some : digits ≠ [])
    (inside : ∀ byte ∈ digits, isDigit byte = true) (ends : tail.head?.any isDigit = false) :
    fractionLength ('.'.toUInt8 :: (digits ++ tail)) = digits.length + 1 := by
  rw [fractionLength, takeWhile_run inside ends]
  split
  next zero => exact absurd (List.length_eq_zero_iff.mp zero) some
  next => rfl

/-- A fraction, which may be empty. -/
def IsFraction (text : List UInt8) : Prop :=
  text = [] ∨ ∃ digits, digits ≠ [] ∧ (∀ byte ∈ digits, isDigit byte = true) ∧
    text = '.'.toUInt8 :: digits

/-- A fraction is cut off in front, which may be empty. -/
theorem exists_fraction (bytes : List UInt8) :
    ∃ fraction after, bytes = fraction ++ after ∧ IsFraction fraction ∧
      fractionLength bytes = fraction.length := by
  cases bytes with
  | nil => exact ⟨[], [], rfl, .inl rfl, rfl⟩
  | cons byte rest =>
      obtain ⟨digits, after, rfl, inside, ends⟩ := exists_run isDigit rest
      by_cases point : byte = '.'.toUInt8 ∧ digits ≠ []
      · obtain ⟨rfl, some⟩ := point
        refine ⟨'.'.toUInt8 :: digits, after, rfl, .inr ⟨digits, some, inside, rfl⟩, ?_⟩
        exact fractionLength_digits some inside ends
      · refine ⟨[], byte :: (digits ++ after), rfl, .inl rfl, ?_⟩
        rw [fractionLength, takeWhile_run inside ends]
        split
        · rfl
        next none =>
          refine if_neg fun same => point ⟨same, ?_⟩
          rintro rfl
          exact none rfl

/-- Whether a byte is the letter of a power of ten. -/
def isExponentMark (byte : UInt8) : Bool :=
  byte = 'e'.toUInt8 || byte = 'E'.toUInt8

/-- Whether bytes are a sign, or none. -/
def IsSign (sign : List UInt8) : Prop :=
  sign = [] ∨ sign = ['+'.toUInt8] ∨ sign = ['-'.toUInt8]

/-- A sign counts where digits follow it. -/
theorem signLength_sign {sign digits tail : List UInt8} (isSign : IsSign sign)
    (some : digits ≠ []) (inside : ∀ byte ∈ digits, isDigit byte = true) :
    signLength (sign ++ (digits ++ tail)) = sign.length := by
  obtain ⟨digit, more, rfl⟩ := List.exists_cons_of_ne_nil some
  have isDigit := inside digit List.mem_cons_self
  rcases isSign with rfl | rfl | rfl
  · have notPlus : digit ≠ '+'.toUInt8 := by
      rintro rfl
      exact absurd isDigit (by decide)
    have notMinus : digit ≠ '-'.toUInt8 := by
      rintro rfl
      exact absurd isDigit (by decide)
    simp only [List.nil_append, List.cons_append, signLength, notPlus, notMinus, decide_false,
      Bool.or_self, Bool.false_eq_true, ↓reduceIte, List.length_nil]
  · rfl
  · rfl

theorem exponentLength_eq_zero {bytes : List UInt8}
    (other : bytes.head?.any isExponentMark = false) : exponentLength bytes = 0 := by
  cases bytes with
  | nil => rfl
  | cons byte rest =>
      have notMark : isExponentMark byte = false := by simpa using other
      unfold isExponentMark at notMark
      simp only [exponentLength, notMark, Bool.false_eq_true, ↓reduceIte]
      split <;> rfl

/-- A power of ten is its letter, its sign and its digits. -/
theorem exponentLength_digits {mark : UInt8} {sign digits tail : List UInt8}
    (marked : isExponentMark mark = true) (isSign : IsSign sign) (some : digits ≠ [])
    (inside : ∀ byte ∈ digits, isDigit byte = true) (ends : tail.head?.any isDigit = false) :
    exponentLength (mark :: (sign ++ (digits ++ tail))) = sign.length + digits.length + 1 := by
  unfold isExponentMark at marked
  unfold exponentLength
  simp only [signLength_sign isSign some inside, List.drop_left, takeWhile_run inside ends, marked,
    ↓reduceIte]
  split
  next zero => exact absurd (List.length_eq_zero_iff.mp zero) some
  next => rfl

/-- A sign is cut off in front, which may be empty. -/
theorem exists_sign (bytes : List UInt8) : ∃ sign unsigned, bytes = sign ++ unsigned ∧
    IsSign sign ∧ signLength bytes = sign.length := by
  cases bytes with
  | nil => exact ⟨[], [], rfl, .inl rfl, rfl⟩
  | cons byte rest =>
      by_cases signed : byte = '+'.toUInt8 ∨ byte = '-'.toUInt8
      · refine ⟨[byte], rest, rfl, ?_, ?_⟩
        · rcases signed with rfl | rfl
          · exact .inr (.inl rfl)
          · exact .inr (.inr rfl)
        · rcases signed with rfl | rfl <;> rfl
      · refine ⟨[], byte :: rest, rfl, .inl rfl, ?_⟩
        simp only [signLength, Bool.or_eq_true, decide_eq_true_eq, signed, ↓reduceIte,
          List.length_nil]

/-- A power of ten, which may be empty. -/
def IsExponent (text : List UInt8) : Prop :=
  text = [] ∨ ∃ mark sign digits, isExponentMark mark = true ∧ IsSign sign ∧ digits ≠ [] ∧
    (∀ byte ∈ digits, isDigit byte = true) ∧ text = mark :: (sign ++ digits)

/-- A power of ten is cut off in front, which may be empty. -/
theorem exists_exponent (bytes : List UInt8) :
    ∃ exponent after, bytes = exponent ++ after ∧ IsExponent exponent ∧
      exponentLength bytes = exponent.length := by
  cases bytes with
  | nil => exact ⟨[], [], rfl, .inl rfl, rfl⟩
  | cons byte rest =>
      obtain ⟨sign, unsigned, rfl, isSign, length⟩ := exists_sign rest
      obtain ⟨digits, after, rfl, inside, ends⟩ := exists_run isDigit unsigned
      by_cases marked : isExponentMark byte = true ∧ digits ≠ []
      · obtain ⟨mark, some⟩ := marked
        refine ⟨byte :: (sign ++ digits), after, by rw [List.cons_append, List.append_assoc],
          .inr ⟨byte, sign, digits, mark, isSign, some, inside, rfl⟩, ?_⟩
        rw [exponentLength_digits mark isSign some inside ends, List.length_cons,
          List.length_append]
      · refine ⟨[], byte :: (sign ++ (digits ++ after)), rfl, .inl rfl, ?_⟩
        simp only [exponentLength, length, List.drop_left, takeWhile_run inside ends]
        split
        · rfl
        next none =>
          refine if_neg fun same => marked ⟨same, ?_⟩
          rintro rfl
          exact none rfl

theorem not_isSpace_of_isFraction {text : List UInt8} (isFraction : IsFraction text) :
    ∀ byte ∈ text, isSpace byte = false := by
  rcases isFraction with rfl | ⟨digits, _, inside, rfl⟩
  · exact fun _ member => absurd member List.not_mem_nil
  · exact List.forall_mem_cons.mpr ⟨by decide, spaceless_of_inky inky_isDigit inside⟩

theorem inky_isExponentMark : Inky isExponentMark := by
  intro byte space
  rcases isSpace_cases space with rfl | rfl | rfl | rfl | rfl <;> decide

theorem not_isSpace_of_isExponent {text : List UInt8} (isExponent : IsExponent text) :
    ∀ byte ∈ text, isSpace byte = false := by
  rcases isExponent with rfl | ⟨mark, sign, digits, marked, isSign, _, inside, rfl⟩
  · exact fun _ member => absurd member List.not_mem_nil
  · refine List.forall_mem_cons.mpr ⟨inky_isExponentMark.isSpace_eq_false marked, ?_⟩
    have spaceless := spaceless_of_inky inky_isDigit inside
    rcases isSign with rfl | rfl | rfl
    · exact spaceless
    · exact List.forall_mem_cons.mpr ⟨by decide, spaceless⟩
    · exact List.forall_mem_cons.mpr ⟨by decide, spaceless⟩

/-- Behind the fraction of a number there is neither a digit nor a point. -/
theorem head_exponent {exponent tail : List UInt8} (isExponent : IsExponent exponent)
    (stops : Stops tail) :
    (exponent ++ tail).head?.any isDigit = false ∧
      (exponent ++ tail).head?.any (fun byte => byte = '.'.toUInt8) = false := by
  rcases isExponent with rfl | ⟨mark, sign, digits, marked, _, _, _, rfl⟩
  · exact ⟨stops.any_head inky_isDigit, stops.any_head (inky_eq (by decide))⟩
  · unfold isExponentMark at marked
    rw [Bool.or_eq_true, decide_eq_true_eq, decide_eq_true_eq] at marked
    rcases marked with rfl | rfl
    · exact ⟨rfl, rfl⟩
    · exact ⟨rfl, rfl⟩

theorem fractionLength_isFraction {fraction rest : List UInt8} (isFraction : IsFraction fraction)
    (notDigit : rest.head?.any isDigit = false)
    (notPoint : rest.head?.any (fun byte => byte = '.'.toUInt8) = false) :
    fractionLength (fraction ++ rest) = fraction.length := by
  rcases isFraction with rfl | ⟨digits, some, inside, rfl⟩
  · exact fractionLength_eq_zero notPoint
  · exact fractionLength_digits some inside notDigit

theorem exponentLength_isExponent {exponent tail : List UInt8} (isExponent : IsExponent exponent)
    (stops : Stops tail) : exponentLength (exponent ++ tail) = exponent.length := by
  rcases isExponent with rfl | ⟨mark, sign, digits, marked, isSign, some, inside, rfl⟩
  · exact exponentLength_eq_zero (stops.any_head inky_isExponentMark)
  · have ends := stops.any_head inky_isDigit
    rw [List.cons_append, List.append_assoc, exponentLength_digits marked isSign some inside ends,
      List.length_cons, List.length_append]

/-- Bytes start with the parts of a decimal number, any of which may be empty. -/
theorem exists_decimal (bytes : List UInt8) : ∃ whole fraction exponent after,
    bytes = whole ++ (fraction ++ (exponent ++ after)) ∧
      (∀ byte ∈ whole, isDigit byte = true) ∧ IsFraction fraction ∧ IsExponent exponent ∧
      (fraction ++ (exponent ++ after)).head?.any isDigit = false ∧
      fractionLength (fraction ++ (exponent ++ after)) = fraction.length ∧
      decimalLength bytes = (whole ++ (fraction ++ exponent)).length := by
  obtain ⟨whole, rest, rfl, digits, ends⟩ := exists_run isDigit bytes
  obtain ⟨fraction, behind, rfl, isFraction, fractionThere⟩ := exists_fraction rest
  obtain ⟨exponent, after, rfl, isExponent, exponentThere⟩ := exists_exponent behind
  refine ⟨whole, fraction, exponent, after, rfl, digits, isFraction, isExponent, ends,
    fractionThere, ?_⟩
  unfold decimalLength
  simp only [takeWhile_run digits ends, List.drop_left, fractionThere, ← List.drop_drop,
    exponentThere, List.length_append, Nat.add_assoc]

section Decimals

variable {whole fraction exponent tail : List UInt8}

/-- Behind the digits of a number comes its point, its power of ten or what stops. -/
theorem head_behind (isFraction : IsFraction fraction) (isExponent : IsExponent exponent)
    (stops : Stops tail) {byte : UInt8}
    (head : (fraction ++ (exponent ++ tail)).head? = some byte) :
    byte = '.'.toUInt8 ∨ isExponentMark byte = true ∨ isSpace byte = true := by
  rcases isFraction with rfl | ⟨digits, _, _, rfl⟩
  · rcases isExponent with rfl | ⟨mark, sign, digits, marked, _, _, _, rfl⟩
    · exact .inr (.inr (stops byte head))
    · exact .inr (.inl (Option.some.inj head ▸ marked))
  · exact .inl (Option.some.inj head).symm

/-- What may stand behind the whole digits of a number is no digit. -/
theorem not_isDigit_behind (isFraction : IsFraction fraction) (isExponent : IsExponent exponent)
    (stops : Stops tail) : (fraction ++ (exponent ++ tail)).head?.any isDigit = false := by
  cases head : (fraction ++ (exponent ++ tail)).head? with
  | none => rfl
  | some byte =>
      rcases head_behind isFraction isExponent stops head with rfl | marked | space
      · rfl
      · unfold isExponentMark at marked
        rw [Bool.or_eq_true, decide_eq_true_eq, decide_eq_true_eq] at marked
        rcases marked with rfl | rfl <;> rfl
      · exact inky_isDigit byte space

theorem decimalLength_append (digits : ∀ byte ∈ whole, isDigit byte = true)
    (isFraction : IsFraction fraction) (isExponent : IsExponent exponent) (stops : Stops tail) :
    decimalLength (whole ++ (fraction ++ (exponent ++ tail))) =
      (whole ++ (fraction ++ exponent)).length := by
  obtain ⟨notDigit, notPoint⟩ := head_exponent isExponent stops
  unfold decimalLength
  simp only [takeWhile_run digits (not_isDigit_behind isFraction isExponent stops), List.drop_left,
    fractionLength_isFraction isFraction notDigit notPoint, ← List.drop_drop,
    exponentLength_isExponent isExponent stops, List.length_append, Nat.add_assoc]

end Decimals

/-- Whether bytes start like a hexadecimal number. -/
def IsHexMark (bytes : List UInt8) : Prop :=
  ∃ x digits, bytes = '0'.toUInt8 :: x :: digits ∧ (x = 'x'.toUInt8 ∨ x = 'X'.toUInt8)

/-- A length, unless an identifier follows directly. -/
def unlessNamed (bytes : List UInt8) (length : Nat) : Except (Nat × Complaint) Nat :=
  if bytes[length]?.any isNameStart then .error (length, .characterAfterNumber) else .ok length

/-- A number that does not begin like a hexadecimal one is as long as its decimal digits, its
fraction and its power of ten, unless a name follows. -/
theorem numberLength_decimal {bytes : List UInt8} (notHex : ¬ IsHexMark bytes) :
    numberLength bytes = unlessNamed bytes (decimalLength bytes) := by
  have plain : ∀ zero x digits, bytes = zero :: x :: digits →
      (zero = '0'.toUInt8 && (x = 'x'.toUInt8 || x = 'X'.toUInt8)) = false := by
    rintro zero x digits rfl
    rw [← Bool.not_eq_true, Bool.and_eq_true, decide_eq_true_eq, Bool.or_eq_true,
      decide_eq_true_eq, decide_eq_true_eq]
    rintro ⟨rfl, mark⟩
    exact notHex ⟨x, digits, rfl, mark⟩
  unfold numberLength unlessNamed
  split
  next zero x digits =>
    rw [plain zero x digits rfl]
    rfl
  next => rfl

/-- A number that begins like a hexadecimal one is as long as its digits tell, unless a name
follows. Without digits it is refused. -/
theorem numberLength_hex {x : UInt8} {digits : List UInt8}
    (mark : x = 'x'.toUInt8 ∨ x = 'X'.toUInt8) :
    numberLength ('0'.toUInt8 :: x :: digits) =
      match hexLength? digits with
      | some length => unlessNamed ('0'.toUInt8 :: x :: digits) length
      | none => .error (0, .malformedHex) := by
  have marked : (x = 'x'.toUInt8 || x = 'X'.toUInt8) = true := by
    rw [Bool.or_eq_true, decide_eq_true_eq, decide_eq_true_eq]
    exact mark
  unfold numberLength unlessNamed
  simp only [marked, decide_true, Bool.and_self, ↓reduceIte]
  cases hexLength? digits <;> rfl

theorem hexLength?_run {run tail : List UInt8} (inside : ∀ byte ∈ run, isHexDigit byte = true)
    (ends : tail.head?.any isHexDigit = false) :
    hexLength? (run ++ tail) = if run = [] then none else some (run.length + 2) := by
  unfold hexLength?
  rw [takeWhile_run inside ends]
  cases run <;> rfl

theorem unlessNamed_stops {text tail : List UInt8} (stops : Stops tail) :
    unlessNamed (text ++ tail) text.length = .ok text.length := by
  unfold unlessNamed
  rw [List.getElem?_append_right (Nat.le_refl _), Nat.sub_self, ← List.head?_eq_getElem?,
    stops.any_head inky_isNameStart]
  rfl

theorem length_of_unlessNamed {bytes : List UInt8} {length read : Nat}
    (accepted : unlessNamed bytes length = .ok read) : read = length := by
  unfold unlessNamed at accepted
  split at accepted
  · contradiction
  · exact (Except.ok.inj accepted).symm

/-- The text of a number: hexadecimal digits behind their mark, or decimal digits, perhaps with a
fraction and a power of ten. -/
inductive IsNumber : List UInt8 → Prop
  | hex {x digits} (mark : x = 'x'.toUInt8 ∨ x = 'X'.toUInt8) (some : digits ≠ [])
    (inside : ∀ byte ∈ digits, isHexDigit byte = true) : IsNumber ('0'.toUInt8 :: x :: digits)
  | decimal {whole fraction exponent} (digits : ∀ byte ∈ whole, isDigit byte = true)
    (isFraction : IsFraction fraction) (isExponent : IsExponent exponent)
    (some : whole ≠ [] ∨ fraction ≠ []) : IsNumber (whole ++ (fraction ++ exponent))

/-- A decimal number does not begin like a hexadecimal one, as no letter `x` is in it or stops it.
-/
theorem not_isHexMark_decimal {whole fraction exponent tail : List UInt8}
    (digits : ∀ byte ∈ whole, isDigit byte = true) (isFraction : IsFraction fraction)
    (isExponent : IsExponent exponent) (stops : Stops tail) :
    ¬ IsHexMark (whole ++ (fraction ++ (exponent ++ tail))) := by
  have behind := @head_behind fraction exponent tail isFraction isExponent stops
  rintro ⟨x, more, split, mark⟩
  match whole with
  | [] =>
      have notDigit := not_isDigit_behind isFraction isExponent stops
      rw [List.nil_append] at split
      rw [split] at notDigit
      exact nomatch (notDigit : true = false)
  | [zero] =>
      have next : fraction ++ (exponent ++ tail) = x :: more := (List.cons.inj split).2
      have head : (fraction ++ (exponent ++ tail)).head? = some x := by
        rw [next]
        rfl
      have other := behind head
      rcases mark with rfl | rfl <;> exact absurd other (by decide)
  | zero :: second :: whole =>
      obtain rfl := (List.cons.inj (List.cons.inj split).2).1
      have digit := digits second (List.mem_cons_of_mem _ List.mem_cons_self)
      rcases mark with rfl | rfl <;> exact absurd digit (by decide)

/-- What the scanner measures as a number is one. -/
theorem exists_number {first : UInt8} {rest : List UInt8} {length : Nat}
    (start : (isDigit first || first = '.'.toUInt8 && rest.head?.any isDigit) = true)
    (accepted : numberLength (first :: rest) = .ok length) :
    ∃ text after, first :: rest = text ++ after ∧ text.length = length ∧ IsNumber text := by
  by_cases hex : IsHexMark (first :: rest)
  · obtain ⟨x, digits, split, mark⟩ := hex
    obtain ⟨run, after, rfl, inside, ends⟩ := exists_run isHexDigit digits
    rw [split] at accepted ⊢
    rw [numberLength_hex mark, hexLength?_run inside ends] at accepted
    by_cases empty : run = []
    · rw [if_pos empty] at accepted
      contradiction
    · rw [if_neg empty] at accepted
      exact ⟨'0'.toUInt8 :: x :: run, after, rfl, (length_of_unlessNamed accepted).symm,
        .hex mark empty inside⟩
  · rw [numberLength_decimal hex] at accepted
    obtain ⟨whole, fraction, exponent, after, split, digits, isFraction, isExponent, ends, point,
      measured⟩ := exists_decimal (first :: rest)
    refine ⟨whole ++ (fraction ++ exponent), after, by simp only [split, List.append_assoc],
      measured.symm.trans (length_of_unlessNamed accepted).symm,
      .decimal digits isFraction isExponent ?_⟩
    refine Classical.byContradiction fun none => ?_
    obtain ⟨rfl, rfl⟩ : whole = [] ∧ fraction = [] := by
      simpa only [not_or, ne_eq, Decidable.not_not] using none
    -- Then the number would start with a point and a digit, which are a fraction.
    rw [List.nil_append] at split
    rw [← split] at ends point
    have notDigit : isDigit first = false := ends
    rw [notDigit, Bool.false_or, Bool.and_eq_true, decide_eq_true_eq] at start
    obtain ⟨rfl, head⟩ := start
    obtain ⟨byte, more, rfl⟩ : ∃ byte more, rest = byte :: more := by
      cases rest with
      | nil => exact nomatch head
      | cons byte more => exact ⟨byte, more, rfl⟩
    have digit : isDigit byte = true := head
    rw [fractionLength, List.takeWhile_cons_of_pos digit] at point
    exact nomatch point

namespace IsNumber

variable {text tail : List UInt8}

/-- There is no white space in a number. -/
theorem spaceless (isNumber : IsNumber text) : ∀ byte ∈ text, isSpace byte = false := by
  cases isNumber with
  | @hex x _ mark _ inside =>
      have ink : isSpace x = false := by rcases mark with rfl | rfl <;> decide
      exact List.forall_mem_cons.mpr ⟨by decide,
        List.forall_mem_cons.mpr ⟨ink, spaceless_of_inky inky_isHexDigit inside⟩⟩
  | decimal digits isFraction isExponent _ =>
      intro byte member
      rcases List.mem_append.mp member with first | later
      · exact spaceless_of_inky inky_isDigit digits byte first
      · rcases List.mem_append.mp later with middle | last
        · exact not_isSpace_of_isFraction isFraction byte middle
        · exact not_isSpace_of_isExponent isExponent byte last

/-- A number starts with a digit, or with a point and a digit. -/
theorem exists_start (isNumber : IsNumber text) : ∃ first body, text = first :: body ∧
    ∀ tail : List UInt8,
      (isDigit first || first = '.'.toUInt8 && (body ++ tail).head?.any isDigit) = true := by
  cases isNumber with
  | hex => exact ⟨_, _, rfl, fun _ => rfl⟩
  | @decimal whole fraction exponent digits isFraction isExponent some =>
      cases whole with
      | cons digit whole =>
          refine ⟨digit, _, rfl, fun _ => ?_⟩
          rw [digits digit List.mem_cons_self, Bool.true_or]
      | nil =>
          rcases isFraction with rfl | ⟨more, nonempty, inside, rfl⟩
          · exact absurd rfl (some.resolve_left fun other => other rfl)
          · obtain ⟨digit, more, rfl⟩ := List.exists_cons_of_ne_nil nonempty
            refine ⟨'.'.toUInt8, _, rfl, fun _ => ?_⟩
            exact inside digit List.mem_cons_self

/-- A number is measured as a whole when something that stops comes after it. -/
theorem numberLength_eq (isNumber : IsNumber text) (stops : Stops tail) :
    numberLength (text ++ tail) = .ok text.length := by
  have ends := @unlessNamed_stops text tail stops
  cases isNumber with
  | @hex x digits mark some inside =>
      rw [List.cons_append, List.cons_append, numberLength_hex mark,
        hexLength?_run inside (stops.any_head inky_isHexDigit), if_neg some]
      exact ends
  | @decimal whole fraction exponent digits isFraction isExponent some =>
      have parts : whole ++ (fraction ++ exponent) ++ tail =
          whole ++ (fraction ++ (exponent ++ tail)) := by
        simp only [List.append_assoc]
      rw [parts] at ends ⊢
      rw [numberLength_decimal (not_isHexMark_decimal digits isFraction isExponent stops),
        decimalLength_append digits isFraction isExponent stops]
      exact ends

end IsNumber

end Numbers

section Strings

/-- The bytes of a string up to its closing quote: bytes that stand for themselves, and bytes
behind backslashes. -/
inductive Inside (quote : UInt8) : List UInt8 → Prop
  | nil : Inside quote []
  | plain {byte more} (notNewline : byte ≠ '\n'.toUInt8) (notEscape : byte ≠ '\\'.toUInt8)
    (notQuote : byte ≠ quote) (next : Inside quote more) : Inside quote (byte :: more)
  | escaped {byte more} (notNewline : byte ≠ '\n'.toUInt8) (next : Inside quote more) :
    Inside quote ('\\'.toUInt8 :: byte :: more)

/-- The scanner of strings passes bytes as a whole: it goes on behind them. -/
def ScansPast (quote : UInt8) (bytes : List UInt8) : Prop :=
  ∀ length rest, stringLength? quote length (bytes ++ rest) =
    stringLength? quote (length + bytes.length) rest

variable {quote : UInt8}

/-- A string goes on over a byte that stands for itself. -/
theorem stringLength?_plain {byte : UInt8} (notNewline : byte ≠ '\n'.toUInt8)
    (notEscape : byte ≠ '\\'.toUInt8) (notQuote : byte ≠ quote) (length : Nat)
    (rest : List UInt8) :
    stringLength? quote length (byte :: rest) = stringLength? quote (length + 1) rest := by
  rw [stringLength?.eq_def]
  simp only [notNewline, notEscape, notQuote, ↓reduceIte]

/-- A string goes on over an escaped byte. -/
theorem stringLength?_backslash {escaped : UInt8} (notNewline : escaped ≠ '\n'.toUInt8)
    (length : Nat) (rest : List UInt8) :
    stringLength? quote length ('\\'.toUInt8 :: escaped :: rest) =
      stringLength? quote (length + 2) rest := by
  have newline : '\\'.toUInt8 ≠ '\n'.toUInt8 := by decide
  rw [stringLength?.eq_def]
  simp only [newline, notNewline, ↓reduceIte]

/-- A string ends at its quote. -/
theorem stringLength?_quote (notNewline : quote ≠ '\n'.toUInt8) (notEscape : quote ≠ '\\'.toUInt8)
    (length : Nat) (rest : List UInt8) :
    stringLength? quote length (quote :: rest) = some (length + 1) := by
  rw [stringLength?.eq_def]
  simp only [notNewline, notEscape, ↓reduceIte]

/-- The bytes of a string are scanned up to its closing quote. -/
theorem Inside.scansPast {bytes : List UInt8} (inside : Inside quote bytes) :
    ScansPast quote bytes := by
  induction inside with
  | nil => exact fun _ _ => rfl
  | plain notNewline notEscape notQuote next ih =>
      intro length rest
      rw [List.cons_append, stringLength?_plain notNewline notEscape notQuote, ih, List.length_cons,
        Nat.add_right_comm, Nat.add_assoc]
  | escaped notNewline next ih =>
      intro length rest
      rw [List.cons_append, List.cons_append, stringLength?_backslash notNewline, ih,
        List.length_cons, List.length_cons, Nat.add_right_comm, Nat.add_assoc]

theorem Inside.not_mem_newline {bytes : List UInt8} (inside : Inside quote bytes) :
    '\n'.toUInt8 ∉ bytes := by
  have newline : '\n'.toUInt8 ≠ '\\'.toUInt8 := by decide
  induction inside with
  | nil => exact List.not_mem_nil
  | plain notNewline _ _ next ih =>
      simp only [List.mem_cons, ih, Ne.symm notNewline, or_self, not_false_eq_true]
  | escaped notNewline next ih =>
      simp only [List.mem_cons, ih, newline, Ne.symm notNewline, or_self, not_false_eq_true]

theorem Inside.append {first second : List UInt8} (inside : Inside quote first)
    (more : Inside quote second) : Inside quote (first ++ second) := by
  induction inside with
  | nil => exact more
  | plain notNewline notEscape notQuote _ ih => exact .plain notNewline notEscape notQuote ih
  | escaped notNewline _ ih => exact .escaped notNewline ih

/-- A string is measured up to its quote, whatever comes after it. -/
theorem Inside.stringLength?_eq {bytes : List UInt8} (inside : Inside quote bytes)
    (notNewline : quote ≠ '\n'.toUInt8) (notEscape : quote ≠ '\\'.toUInt8) (length : Nat)
    (tail : List UInt8) :
    stringLength? quote length (bytes ++ quote :: tail) = some (length + bytes.length + 1) := by
  rw [inside.scansPast, stringLength?_quote notNewline notEscape]

/-- What is measured as a string ends at a quote. -/
theorem exists_inside {length total : Nat} {bytes : List UInt8}
    (closed : stringLength? quote length bytes = some total) :
    ∃ text after, bytes = text ++ quote :: after ∧ total = length + text.length + 1 ∧
      Inside quote text ∧ quote ≠ '\n'.toUInt8 ∧ quote ≠ '\\'.toUInt8 := by
  have newline : '\\'.toUInt8 ≠ '\n'.toUInt8 := by decide
  induction length, bytes using stringLength?.induct quote with
  | case1 => contradiction
  | case2 length rest =>
      rw [stringLength?.eq_def] at closed
      simp only [↓reduceIte] at closed
      contradiction
  | case3 length =>
      rw [stringLength?.eq_def] at closed
      simp only [newline, ↓reduceIte] at closed
      contradiction
  | case4 length rest =>
      rw [stringLength?.eq_def] at closed
      simp only [newline, ↓reduceIte] at closed
      contradiction
  | case5 length escaped rest notEnd _ ih =>
      rw [stringLength?_backslash notEnd] at closed
      obtain ⟨text, after, rfl, same, inside, sound⟩ := ih closed
      refine ⟨'\\'.toUInt8 :: escaped :: text, after, rfl, ?_, .escaped notEnd inside, sound⟩
      rw [same, List.length_cons, List.length_cons]
      omega
  | case6 length rest notEnd notEscape =>
      rw [stringLength?_quote notEnd notEscape] at closed
      exact ⟨[], rest, rfl, (Option.some.inj closed).symm, .nil, notEnd, notEscape⟩
  | case7 length byte rest notEnd notEscape notQuote ih =>
      rw [stringLength?_plain notEnd notEscape notQuote] at closed
      obtain ⟨text, after, rfl, same, inside, sound⟩ := ih closed
      refine ⟨byte :: text, after, rfl, ?_, .plain notEnd notEscape notQuote inside, sound⟩
      rw [same, List.length_cons]
      omega

end Strings

section Punctuation

/-- No spelling of a punctuation token is empty or has white space in it. -/
theorem byteTable_inked : ∀ entry ∈ Punct.byteTable,
    entry.1 ≠ [] ∧ ∀ byte ∈ entry.1, isSpace byte = false := by
  have inked : ∀ entry ∈ Punct.byteTable, entry.1 ≠ [] ∧ entry.1.any isSpace = false := by
    decide +kernel
  exact fun entry member => (inked entry member).imp_right spaceless_of_any

/-- What has no white space in it does not reach beyond what stops. -/
theorem prefix_of_stops {spelling text tail : List UInt8}
    (spaceless : ∀ byte ∈ spelling, isSpace byte = false) (stops : Stops tail)
    (within : spelling <+: text ++ tail) : spelling <+: text := by
  by_cases short : spelling.length ≤ text.length
  · exact List.prefix_of_prefix_length_le within (List.prefix_append text tail) short
  · have longer : text <+: spelling :=
      List.prefix_of_prefix_length_le (List.prefix_append text tail) within (by omega)
    obtain ⟨more, rfl⟩ := longer
    have rest : more <+: tail := (List.prefix_append_right_inj text).mp within
    cases more with
    | nil => simp at short
    | cons byte more =>
        obtain ⟨last, rfl⟩ := rest
        have space := stops byte rfl
        have ink := spaceless byte (List.mem_append_right text List.mem_cons_self)
        rw [space] at ink
        contradiction

/-- A punctuation token is read again when something that stops comes after it. -/
theorem find?_firm {bytes : List UInt8} {punct : Punct} {length : Nat}
    (found : Punct.find? bytes = some (punct, length)) :
    ∃ text after, bytes = text ++ after ∧ text.length = length ∧ text ≠ [] ∧
      (∀ byte ∈ text, isSpace byte = false) ∧
      ∀ tail, Stops tail → Punct.find? (text ++ tail) = some (punct, length) := by
  obtain ⟨⟨text, read⟩, first, same⟩ := Option.map_eq_some_iff.mp found
  obtain ⟨rfl, rfl⟩ := Prod.mk.inj same
  obtain ⟨matched, earlier, later, table, none⟩ := List.find?_eq_some_iff_append.mp first
  obtain ⟨after, rfl⟩ := List.isPrefixOf_iff_prefix.mp matched
  have member : (text, read) ∈ Punct.byteTable := by
    rw [table]
    exact List.mem_append_right earlier List.mem_cons_self
  obtain ⟨some, spaceless⟩ := byteTable_inked _ member
  refine ⟨text, after, rfl, rfl, some, spaceless, ?_⟩
  intro tail stops
  have again : Punct.byteTable.find? (fun entry => entry.1.isPrefixOf (text ++ tail)) =
      Option.some (text, read) := by
    refine List.find?_eq_some_iff_append.mpr ⟨?_, earlier, later, table, ?_⟩
    · exact List.isPrefixOf_iff_prefix.mpr (List.prefix_append text tail)
    · intro entry before
      have inTable : entry ∈ Punct.byteTable := by
        rw [table]
        exact List.mem_append_left _ before
      rw [Bool.not_eq_true', Bool.eq_false_iff]
      intro matched
      -- An earlier spelling would have matched before, too.
      have within := prefix_of_stops (byteTable_inked entry inTable).2 stops
        (List.isPrefixOf_iff_prefix.mp matched)
      have still : entry.1.isPrefixOf (text ++ after) = true :=
        List.isPrefixOf_iff_prefix.mpr (within.trans (List.prefix_append text after))
      have absurd := none entry before
      rw [still] at absurd
      contradiction
  unfold Punct.find?
  rw [again]
  rfl

end Punctuation

end ScriptConsole.Token
