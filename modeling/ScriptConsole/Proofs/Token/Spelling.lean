import ScriptConsole.Parse.Literal
import ScriptConsole.Proofs.Numeric.Digits
import ScriptConsole.Proofs.Script.Printing
import ScriptConsole.Proofs.Text.Utf8
import ScriptConsole.Proofs.Token.Spacing

/-! # Tokens as they are written

The tokens of a written expression are solid and have no carriage return in them, and names,
numbers and strings are read back from their tokens.
-/

namespace ScriptConsole

namespace Text

variable {text : List Char}

theorem dropWhile_blankless (blankless : ∀ c ∈ text, isBlank c = false) :
    text.dropWhile isBlank = text := by
  cases text with
  | nil => rfl
  | cons c rest =>
      refine List.dropWhile_cons_of_neg ?_
      rw [blankless c List.mem_cons_self]
      decide

/-- What has no white space in it is trimmed to itself. -/
theorem trim_blankless (blankless : ∀ c ∈ text, isBlank c = false) : trim text = text := by
  unfold trim trimEnd trimStart
  rw [dropWhile_blankless blankless,
    dropWhile_blankless fun c member => blankless c (List.mem_reverse.mp member),
    List.reverse_reverse]

end Text

namespace Token

/-- A token that can stand between spaces and is no brace. -/
structure Written (key : TokenKey) : Prop where
  solid : Solid key.1 key.2
  noReturn : '\r'.toUInt8 ∉ key.2
  level (depth : Nat) : depth? depth key.1 = some depth

section Signs

/-- Punctuation is read alone as what it spells. -/
theorem piece_sign (punct : Punct) : ∃ first body, (signToken punct).2 = first :: body ∧
    piece first body = .ok (.token (.punct punct), body.length + 1) := by
  cases punct <;> exact ⟨_, _, rfl, rfl⟩

theorem written_of_piece {kind : TokenKind} {first : UInt8} {body : List UInt8}
    (notComment : kind.isComment = false)
    (taken : piece first body = .ok (.token kind, body.length + 1))
    (noReturn : '\r'.toUInt8 ∉ first :: body) (level : ∀ depth, depth? depth kind = some depth) :
    Written (kind, first :: body) := by
  have whole : piece first (body ++ []) = .ok (.token kind, body.length + 1) := by
    rw [List.append_nil]
    exact taken
  exact ⟨solid_of_taken notComment whole, noReturn, level⟩

/-- A token that is all of a source. -/
def lone (kind : TokenKind) (text : List UInt8) : Token :=
  ⟨kind, ⟨.start, Position.start.advance text⟩, text⟩

/-- A written token alone is a source. -/
theorem Written.scan_eq {kind : TokenKind} {text : List UInt8} (written : Written (kind, text)) :
    scan text = .ok [lone kind text] := by
  obtain ⟨first, body, rfl, reads⟩ := written.solid.reads
  have taken := reads [] stops_nil
  rw [List.append_nil] at taken
  have braced : braces? [] (lone kind (first :: body)) = some [] := by
    have counted := braces?_length [] (lone kind (first :: body))
    rw [show (lone kind (first :: body)).kind = kind from rfl, written.level] at counted
    obtain ⟨left, same, none⟩ := Option.map_eq_some_iff.mp counted
    rw [same, List.length_eq_zero_iff.mp none]
  have text : (first :: body).take (body.length + 1) = first :: body :=
    List.take_length (l := first :: body)
  have all : scanFrom 0 .start [] [] (first :: body) = .ok ([], [lone kind (first :: body)]) := by
    have behind := @scanFrom_skip (Position.start.step first) [] [lone kind (first :: body)] body []
    rw [List.append_nil] at behind
    rw [scanFrom.eq_def]
    unfold lone at braced behind ⊢
    simp only [taken, text, braced, Nat.add_sub_cancel, behind]
    rfl
  unfold scan
  rw [all, loneReturn?_eq_none.mpr (paired_of_not_mem written.noReturn)]
  rfl

theorem not_mem_sign (punct : Punct) : '\r'.toUInt8 ∉ (signToken punct).2 := by
  cases punct <;> decide +kernel

/-- All punctuation but the braces can be written, as braces change the depth. -/
theorem written_sign {punct : Punct} (notOpen : punct ≠ .openCurly)
    (notClose : punct ≠ .closeCurly) : Written (signToken punct) := by
  obtain ⟨first, body, spelled, taken⟩ := piece_sign punct
  have noReturn := not_mem_sign punct
  have key : signToken punct = (.punct punct, first :: body) := Prod.ext rfl spelled
  rw [spelled] at noReturn
  rw [key]
  apply written_of_piece rfl taken noReturn
  intro depth
  unfold depth?
  rw [if_neg fun same => notOpen (TokenKind.punct.inj same),
    if_neg fun same => notClose (TokenKind.punct.inj same)]

end Signs

section Names

variable {first : UInt8} {rest : List UInt8}

theorem noReturn_of_spaceless {bytes : List UInt8}
    (spaceless : ∀ byte ∈ bytes, isSpace byte = false) : '\r'.toUInt8 ∉ bytes :=
  fun member => absurd (spaceless _ member) (by decide)

theorem spaceless_identifier (start : isNameStart first = true)
    (inside : ∀ byte ∈ rest, isNameRest byte = true) :
    ∀ byte ∈ first :: rest, isSpace byte = false :=
  List.forall_mem_cons.mpr
    ⟨inky_isNameStart.isSpace_eq_false start, spaceless_of_inky inky_isNameRest inside⟩

theorem isNameRest_all (start : isNameStart first = true)
    (inside : ∀ byte ∈ rest, isNameRest byte = true) :
    ∀ byte ∈ first :: rest, isNameRest byte = true :=
  List.forall_mem_cons.mpr ⟨isNameRest_of_isNameStart start, inside⟩

theorem nameLength_all {bytes : List UInt8} (inside : ∀ byte ∈ bytes, isNameRest byte = true) :
    nameLength bytes = bytes.length := by
  have run := @nameLength_run bytes [] inside rfl
  rw [List.append_nil] at run
  exact run

/-- A word can be written as one identifier. -/
theorem written_word {text : String} (identifier : IsIdentifier (Utf8.encode text)) :
    Written (wordToken text) := by
  obtain ⟨first, rest, spelled, start, inside⟩ := identifier
  have key : wordToken text = (.identifier, first :: rest) := Prod.ext rfl spelled
  have measured : identifierLength (first :: rest) = rest.length + 1 := by
    unfold identifierLength
    rw [nameLength_all (isNameRest_all start inside)]
    have ends : (first :: rest)[rest.length + 1]? = none :=
      List.getElem?_eq_none (Nat.le_refl _)
    simp only [List.length_cons, ends, reduceCtorEq, decide_false, Bool.and_false,
      Bool.false_eq_true, ↓reduceIte]
  have taken : piece first rest = .ok (.token .identifier, rest.length + 1) := by
    rw [piece_identifier start, measured]
  rw [key]
  exact written_of_piece rfl taken (noReturn_of_spaceless (spaceless_identifier start inside))
    fun _ => rfl

/-- Names behind a sign are written if the scanner measures them as a whole. -/
theorem written_marked {kind : TokenKind} {mark : UInt8} {name : List UInt8}
    {measure : List UInt8 → Nat} (notComment : kind.isComment = false)
    (opens : ∀ rest, rest.head?.any isNameStart = true →
      piece mark rest = .ok (.token kind, measure rest + 1))
    (named : name.head?.any isNameStart = true) (measured : measure name = name.length)
    (noReturn : '\r'.toUInt8 ∉ mark :: name) (level : ∀ depth, depth? depth kind = some depth) :
    Written (kind, mark :: name) := by
  have taken : piece mark name = .ok (.token kind, name.length + 1) := by
    rw [opens name named, measured]
  exact written_of_piece notComment taken noReturn level

theorem written_local {name : Symbol} (identifier : IsIdentifier (Utf8.encode name.text)) :
    Written (Scope.token name .ofCall) := by
  obtain ⟨first, rest, spelled, start, inside⟩ := identifier
  unfold Scope.token
  dsimp only
  rw [spelled]
  have spaceless := spaceless_identifier start inside
  apply written_marked rfl (fun _ named => piece_local named) (by simpa using start)
    (nameLength_all (isNameRest_all start inside)) _ fun _ => rfl
  exact noReturn_of_spaceless (List.forall_mem_cons.mpr ⟨rfl, spaceless⟩)

/-- The bytes that go on with a name count in full. -/
theorem segmentsLength_run {run : List UInt8} (tail : List UInt8)
    (inside : ∀ byte ∈ run, isNameRest byte = true) :
    segmentsLength (run ++ tail) = run.length + segmentsLength tail := by
  induction run with
  | nil => rw [List.nil_append, List.length_nil, Nat.zero_add]
  | cons byte run ih =>
      obtain ⟨member, inside⟩ := List.forall_mem_cons.mp inside
      have more : segmentsLength (byte :: (run ++ tail)) = segmentsLength (run ++ tail) + 1 := by
        rw [segmentsLength.eq_def]
        simp only [member, ↓reduceIte]
      rw [List.cons_append, more, ih inside, List.length_cons]
      omega

theorem intercalate_cons_cons (between first next : List UInt8) (more : List (List UInt8)) :
    between.intercalate (first :: next :: more) =
      first ++ (between ++ between.intercalate (next :: more)) := by
  simp only [List.intercalate, List.intersperse_cons_cons, List.flatten_cons]

/-- A name of segments is measured as a whole. It starts as an identifier and goes on with
bytes of identifiers and with colons. -/
theorem globalName_bytes {segments : List (List UInt8)} (some : segments ≠ [])
    (identifiers : ∀ segment ∈ segments, IsIdentifier segment) :
    let name := (Utf8.encode "::").intercalate segments
    name.head?.any isNameStart = true ∧ segmentsLength name = name.length ∧
      ∀ byte ∈ name, isNameRest byte = true ∨ byte = ':'.toUInt8 := by
  induction segments with
  | nil => exact absurd rfl some
  | cons segment more ih =>
      obtain ⟨first, rest, rfl, start, inside⟩ := identifiers segment List.mem_cons_self
      have all := isNameRest_all start inside
      cases more with
      | nil =>
          have alone : (Utf8.encode "::").intercalate [first :: rest] = first :: rest := by
            simp only [List.intercalate, List.intersperse_singleton, List.flatten_cons,
              List.flatten_nil, List.append_nil]
          have measured := segmentsLength_run [] all
          rw [List.append_nil] at measured
          simp only [alone]
          exact ⟨by simpa using start, measured, fun byte member => .inl (all byte member)⟩
      | cons next more =>
          obtain ⟨starts, measured, goesOn⟩ :=
            ih (List.cons_ne_nil next more) (List.forall_mem_cons.mp identifiers).2
          rw [intercalate_cons_cons]
          have colons : Utf8.encode "::" = [':'.toUInt8, ':'.toUInt8] := by decide
          generalize (Utf8.encode "::").intercalate (next :: more) = name at *
          rw [colons]
          refine ⟨by simpa using start, ?_, ?_⟩
          · rw [segmentsLength_run _ all, List.cons_append, List.singleton_append,
              segmentsLength_colons starts, measured]
            simp only [List.length_append, List.length_cons]
          · intro byte member
            rcases List.mem_append.mp member with front | member
            · exact .inl (all byte front)
            rcases List.mem_cons.mp member with rfl | member
            · exact .inr rfl
            rcases List.mem_cons.mp member with rfl | member
            · exact .inr rfl
            · exact goesOn byte member

/-- The name of a global variable can be written, in a namespace or in none. -/
theorem written_global {name : Symbol} (globalName : IsGlobalName (Utf8.encode name.text)) :
    Written (Scope.token name .ofConsole) := by
  obtain ⟨segments, some, identifiers, spelled⟩ := globalName
  obtain ⟨starts, measured, goesOn⟩ := globalName_bytes some identifiers
  have spaceless : ∀ byte ∈ '$'.toUInt8 :: (Utf8.encode "::").intercalate segments,
      isSpace byte = false := by
    intro byte member
    rcases List.mem_cons.mp member with rfl | member
    · rfl
    rcases goesOn byte member with named | rfl
    · exact inky_isNameRest.isSpace_eq_false named
    · rfl
  unfold Scope.token
  dsimp only
  rw [spelled]
  exact written_marked rfl (fun _ named => piece_global named) starts measured
    (noReturn_of_spaceless spaceless) fun _ => rfl

theorem toNat_lt_of_isNameRest {byte : UInt8} (named : isNameRest byte = true) :
    byte.toNat < 128 := by
  have z : 'z'.toUInt8.toNat = 122 := rfl
  have upperCase : 'Z'.toUInt8.toNat = 90 := rfl
  have nine : '9'.toUInt8.toNat = 57 := rfl
  have underscore : '_'.toUInt8.toNat = 95 := rfl
  simp only [isNameRest, isNameStart, isLetter, isDigit, Bool.or_eq_true, Bool.and_eq_true,
    decide_eq_true_eq, UInt8.le_iff_toNat_le, ← UInt8.toNat_inj] at named
  omega

/-- An identifier is read back from its bytes. -/
theorem ofAscii_identifier {text : String} (identifier : IsIdentifier (Utf8.encode text)) :
    Utf8.ofAscii (Utf8.encode text) = text := by
  apply Utf8.ofAscii_encode
  obtain ⟨first, rest, spelled, start, inside⟩ := identifier
  rw [spelled]
  intro byte member
  exact toNat_lt_of_isNameRest (isNameRest_all start inside byte member)

theorem ofAscii_globalName {text : String} (globalName : IsGlobalName (Utf8.encode text)) :
    Utf8.ofAscii (Utf8.encode text) = text := by
  apply Utf8.ofAscii_encode
  obtain ⟨segments, some, identifiers, spelled⟩ := globalName
  obtain ⟨-, -, goesOn⟩ := globalName_bytes some identifiers
  rw [spelled]
  intro byte member
  rcases goesOn byte member with named | rfl
  · exact toNat_lt_of_isNameRest named
  · decide

end Names

section Numbers

/-- The decimal digits of a number as bytes. -/
theorem encode_toString (number : Nat) : Utf8.encode (toString number) =
    (Nat.toDigits 10 number).map fun c => UInt8.ofNat c.toNat := by
  have spelled : (toString number).toList = Nat.toDigits 10 number := by
    rw [Nat.toString_eq_ofList_toDigits, String.toList_ofList]
  unfold Utf8.encode
  rw [spelled]
  apply Utf8.encodeChars_ascii
  intro c member
  have bounds := bounds_of_mem_toDigits member
  omega

theorem isDigit_of_mem_digits {number : Nat} {byte : UInt8}
    (member : byte ∈ Utf8.encode (toString number)) : isDigit byte = true := by
  rw [encode_toString] at member
  obtain ⟨c, within, rfl⟩ := List.mem_map.mp member
  obtain ⟨low, high⟩ := bounds_of_mem_toDigits within
  have code := Utf8.toNat_ofNat_of_lt (show c.toNat < 256 by omega)
  simp only [isDigit, Bool.and_eq_true, decide_eq_true_eq, UInt8.le_iff_toNat_le, code]
  exact ⟨low, high⟩

theorem exists_digits (number : Nat) : ∃ first rest,
    Utf8.encode (toString number) = first :: rest ∧
      ∀ byte ∈ first :: rest, isDigit byte = true := by
  obtain ⟨first, rest, spelled⟩ : ∃ first rest, Utf8.encode (toString number) = first :: rest := by
    apply List.exists_cons_of_ne_nil
    rw [encode_toString]
    exact fun none => Nat.toDigits_ne_nil (List.map_eq_nil_iff.mp none)
  refine ⟨first, rest, spelled, fun byte member => ?_⟩
  rw [← spelled] at member
  exact isDigit_of_mem_digits member

/-- The decimal digits of a number have its value. -/
theorem foldl_digits (number : Nat) :
    ((Utf8.encode (toString number)).map digitValue).foldl
      (fun value digit => value * 10 + digit) 0 = number := by
  have same (chars : List Char) (value : Nat) (digits : ∀ c ∈ chars, c.toNat < 256) :
      ((chars.map fun c => UInt8.ofNat c.toNat).map digitValue).foldl
        (fun value digit => value * 10 + digit) value = Nat.ofDigitChars 10 chars value := by
    induction chars generalizing value with
    | nil => rfl
    | cons c chars ih =>
        obtain ⟨small, digits⟩ := List.forall_mem_cons.mp digits
        have digit : digitValue (UInt8.ofNat c.toNat) = c.toNat - '0'.toNat := by
          unfold digitValue
          rw [Utf8.toNat_ofNat_of_lt small]
          rfl
        rw [List.map_cons, List.map_cons, List.foldl_cons, ih _ digits, digit, Nat.mul_comm]
        rfl
  rw [encode_toString, same, Nat.ofDigitChars_ten_toDigits]
  intro c member
  have bounds := bounds_of_mem_toDigits member
  omega

theorem integerValue?_digits {number : Nat} (below : number < Nat.pow 2 63) :
    integerValue? (Utf8.encode (toString number)) = some number := by
  have all : (Utf8.encode (toString number)).all isDigit = true :=
    List.all_eq_true.mpr fun _ member => isDigit_of_mem_digits member
  have value := foldl_digits number
  unfold integerValue?
  rw [if_pos all, (valueBelow?_eq_some_iff (by decide) (by decide)).mpr ⟨value, below⟩]

theorem not_isHexMark {bytes : List UInt8} (digits : ∀ byte ∈ bytes, isDigit byte = true) :
    ¬ IsHexMark bytes := by
  rintro ⟨x, rest, rfl, mark⟩
  have digit := digits x (List.mem_cons_of_mem _ List.mem_cons_self)
  rcases mark with rfl | rfl
  · exact absurd digit (by decide)
  · exact absurd digit (by decide)

/-- A number that is not marked as hexadecimal is read as a decimal one. -/
theorem numberValue_decimal {bytes : List UInt8} (notHex : ¬ IsHexMark bytes) :
    numberValue bytes = numberValue.decimalValue bytes := by
  unfold numberValue
  split
  next zero x more =>
    have plain : (zero = '0'.toUInt8 && (x = 'x'.toUInt8 || x = 'X'.toUInt8)) = false := by
      rw [← Bool.not_eq_true, Bool.and_eq_true, decide_eq_true_eq, Bool.or_eq_true,
        decide_eq_true_eq, decide_eq_true_eq]
      rintro ⟨rfl, mark⟩
      exact notHex ⟨x, more, rfl, mark⟩
    rw [plain]
    rfl
  next => rfl

theorem numberValue_digits {number : Nat} (below : number < Nat.pow 2 63) :
    numberValue (Utf8.encode (toString number)) = .ok (.int (Int64.ofNat number)) := by
  obtain ⟨first, rest, spelled, digits⟩ := exists_digits number
  rw [numberValue_decimal (spelled ▸ not_isHexMark digits), numberValue.decimalValue,
    integerValue?_digits below]

theorem isNumber_digits {digits : List UInt8} (some : digits ≠ [])
    (all : ∀ byte ∈ digits, isDigit byte = true) : IsNumber digits := by
  have whole := @IsNumber.decimal digits [] [] all (.inl rfl) (.inl rfl) (.inl some)
  rw [List.append_nil, List.append_nil] at whole
  exact whole

/-- A number is one token. -/
theorem written_of_isNumber {text : List UInt8} (isNumber : IsNumber text) :
    Written (.number, text) := by
  obtain ⟨first, body, rfl, start⟩ := isNumber.exists_start
  have taken : piece first body = .ok (.token .number, body.length + 1) := by
    have starts := start []
    have measured := isNumber.numberLength_eq stops_nil
    rw [List.append_nil] at starts measured
    rw [piece_number starts, measured]
    rfl
  exact written_of_piece rfl taken (noReturn_of_spaceless isNumber.spaceless) fun _ => rfl

theorem written_number (value : Int64) : Written (Literal.token (.int value)) := by
  obtain ⟨first, rest, spelled, digits⟩ := exists_digits value.toNatClampNeg
  have key : Literal.token (.int value) = (.number, first :: rest) := Prod.ext rfl spelled
  rw [key]
  exact written_of_isNumber (isNumber_digits (List.cons_ne_nil _ _) digits)

end Numbers

section Strings

/-- The quotes of strings and of tagged strings. -/
def IsQuote (quote : Char) : Prop :=
  quote = '"' ∨ quote = '\''

/-- How a character may be written between quotes: as itself, or as a letter behind a backslash
that stands for it. -/
inductive Renders (quote c : Char) : List Char → Prop
  | plain (notNewline : c ≠ '\n') (notReturn : c ≠ '\r') (notEscape : c ≠ '\\')
    (notQuote : c ≠ quote) : Renders quote c [c]
  | escaped {letter : Char} (ascii : letter.toNat < 128) (notNewline : letter ≠ '\n')
    (notReturn : letter ≠ '\r')
    (resolved : ∀ rest, unescape ('\\' :: letter :: rest) = c :: unescape rest) :
    Renders quote c ['\\', letter]

/-- A text in quotes, its characters written one by one. -/
def enclosed (quote : Char) (write : Char → List Char) (text : String) : List UInt8 :=
  Utf8.encodeChars (quote :: (text.toList.flatMap write ++ [quote]))

theorem quoted_eq (quote : Char) (text : String) :
    quoted quote text = enclosed quote escape text :=
  rfl

variable {quote c : Char} {written : List Char} {write : Char → List Char}

theorem IsQuote.small (isQuote : IsQuote quote) : quote.toNat < 128 := by
  rcases isQuote with rfl | rfl <;> decide

theorem IsQuote.encodeChars (isQuote : IsQuote quote) :
    Utf8.encodeChars [quote] = [quote.toUInt8] := by
  rcases isQuote with rfl | rfl <;> rfl

theorem IsQuote.ne_newline (isQuote : IsQuote quote) : quote.toUInt8 ≠ '\n'.toUInt8 := by
  rcases isQuote with rfl | rfl <;> decide

theorem IsQuote.ne_escape (isQuote : IsQuote quote) : quote.toUInt8 ≠ '\\'.toUInt8 := by
  rcases isQuote with rfl | rfl <;> decide

/-- Line ends, quotes and backslashes are written behind backslashes. -/
theorem renders_escape (isQuote : IsQuote quote) (c : Char) : Renders quote c (escape c) := by
  unfold escape
  by_cases newline : c = '\n'
  · rw [if_pos newline, newline]
    exact .escaped (by decide) (by decide) (by decide) fun _ => rfl
  rw [if_neg newline]
  by_cases return_ : c = '\r'
  · rw [if_pos return_, return_]
    exact .escaped (by decide) (by decide) (by decide) fun _ => rfl
  rw [if_neg return_]
  by_cases quoting : c = '\\' ∨ c = '"' ∨ c = '\''
  · rw [if_pos quoting]
    rcases quoting with rfl | rfl | rfl
    · exact .escaped (by decide) (by decide) (by decide) fun _ => rfl
    · exact .escaped (by decide) (by decide) (by decide) fun _ => rfl
    · exact .escaped (by decide) (by decide) (by decide) fun _ => rfl
  · rw [if_neg quoting]
    refine .plain newline return_ (fun same => quoting (.inl same)) fun same => ?_
    rcases isQuote with rfl | rfl
    · exact quoting (.inr (.inl same))
    · exact quoting (.inr (.inr same))

theorem inside_of_not_mem {quote : UInt8} {bytes : List UInt8} (noNewline : '\n'.toUInt8 ∉ bytes)
    (noEscape : '\\'.toUInt8 ∉ bytes) (noQuote : quote ∉ bytes) : Inside quote bytes := by
  induction bytes with
  | nil => exact .nil
  | cons byte bytes ih =>
      obtain ⟨notNewline, noNewline⟩ := List.ne_and_not_mem_of_not_mem_cons noNewline
      obtain ⟨notEscape, noEscape⟩ := List.ne_and_not_mem_of_not_mem_cons noEscape
      obtain ⟨notQuote, noQuote⟩ := List.ne_and_not_mem_of_not_mem_cons noQuote
      exact .plain notNewline.symm notEscape.symm notQuote.symm (ih noNewline noEscape noQuote)

/-- What a character is rendered as can stand between quotes. -/
theorem Renders.inside (isQuote : IsQuote quote) (renders : Renders quote c written) :
    Inside quote.toUInt8 (Utf8.encodeChars written) := by
  cases renders with
  | plain notNewline notReturn notEscape notQuote =>
      have apart {ascii : Char} (small : ascii.toNat < 128) (other : c ≠ ascii) :
          ascii.toUInt8 ∉ Utf8.encodeChars [c] := fun member =>
        other (List.mem_singleton.mp (Utf8.mem_of_mem_encodeChars small member)).symm
      exact inside_of_not_mem (apart (by decide) notNewline) (apart (by decide) notEscape)
        (apart isQuote.small notQuote)
  | @escaped letter ascii notNewline _ _ =>
      have bytes : Utf8.encodeChars ['\\', letter] = ['\\'.toUInt8, UInt8.ofNat letter.toNat] :=
        Utf8.encodeChars_ascii
          (List.forall_mem_cons.mpr ⟨by decide, List.forall_mem_singleton.mpr ascii⟩)
      rw [bytes]
      refine .escaped (fun same => notNewline ?_) .nil
      have code := congrArg UInt8.toNat same
      rw [Utf8.toNat_ofNat_of_lt (by omega)] at code
      exact Char.toNat_inj.mp code

theorem Renders.not_mem_return (renders : Renders quote c written) : '\r' ∉ written := by
  cases renders with
  | plain _ notReturn _ _ => exact fun member => notReturn (List.mem_singleton.mp member).symm
  | escaped _ _ notReturn _ =>
      have apart : '\r' ≠ '\\' := by decide
      simp only [List.mem_cons, List.not_mem_nil, apart, notReturn.symm, or_self, not_false_eq_true]

theorem Renders.unescape_append (renders : Renders quote c written) (rest : List Char) :
    unescape (written ++ rest) = c :: unescape rest := by
  cases renders with
  | plain _ _ notEscape _ =>
      rw [List.singleton_append, unescape.eq_def]
      simp only [notEscape, ne_eq, not_false_eq_true, ↓reduceIte]
  | escaped _ _ _ resolved => exact resolved rest

theorem enclosed_eq (isQuote : IsQuote quote) (text : String) :
    enclosed quote write text =
      quote.toUInt8 :: (Utf8.encodeChars (text.toList.flatMap write) ++ [quote.toUInt8]) := by
  have split : enclosed quote write text =
      Utf8.encodeChars [quote] ++ Utf8.encodeChars (text.toList.flatMap write ++ [quote]) :=
    Utf8.encodeChars_append [quote] _
  rw [split, Utf8.encodeChars_append, isQuote.encodeChars, List.singleton_append]

theorem inside_flatMap (isQuote : IsQuote quote) (renders : ∀ c, Renders quote c (write c))
    (text : List Char) : Inside quote.toUInt8 (Utf8.encodeChars (text.flatMap write)) := by
  induction text with
  | nil => exact .nil
  | cons c text ih =>
      rw [List.flatMap_cons, Utf8.encodeChars_append]
      exact ((renders c).inside isQuote).append ih

/-- No carriage return is written between quotes, as it is rendered as an escape. -/
theorem not_mem_enclosed (isQuote : IsQuote quote) (renders : ∀ c, Renders quote c (write c))
    (text : String) : '\r'.toUInt8 ∉ enclosed quote write text := by
  intro member
  have within := Utf8.mem_of_mem_encodeChars (by decide) member
  have notQuote : '\r' ≠ quote := by
    rcases isQuote with rfl | rfl <;> decide
  rcases List.mem_cons.mp within with same | within
  · exact notQuote same
  rcases List.mem_append.mp within with within | same
  · obtain ⟨c, -, return_⟩ := List.mem_flatMap.mp within
    exact (renders c).not_mem_return return_
  · exact notQuote (List.mem_singleton.mp same)

/-- A text in quotes is one string. -/
theorem written_enclosed {kind : TokenKind} (isQuote : IsQuote quote)
    (renders : ∀ c, Renders quote c (write c)) (notComment : kind.isComment = false)
    (opens : ∀ rest, piece quote.toUInt8 rest = stringPiece kind quote.toUInt8 rest)
    (level : ∀ depth, depth? depth kind = some depth) (text : String) :
    Written (kind, enclosed quote write text) := by
  have noReturn := not_mem_enclosed isQuote renders text
  rw [enclosed_eq isQuote] at noReturn ⊢
  apply written_of_piece notComment _ noReturn level
  rw [opens, stringPiece, (inside_flatMap isQuote renders _).stringLength?_eq isQuote.ne_newline
    isQuote.ne_escape, List.length_append, List.length_singleton, Nat.add_comm 1]

/-- A text in quotes is read back. -/
theorem stringValue_enclosed (isQuote : IsQuote quote) (renders : ∀ c, Renders quote c (write c))
    (text : String) : stringValue (enclosed quote write text) = text := by
  have back (chars : List Char) : unescape (chars.flatMap write) = chars := by
    induction chars with
    | nil => rfl
    | cons c chars ih => rw [List.flatMap_cons, (renders c).unescape_append, ih]
  unfold stringValue
  rw [enclosed_eq isQuote, List.drop_one, List.tail_cons, List.dropLast_concat,
    Utf8.decodeLossy_encodeChars, back, String.ofList_toList]

theorem stringValue_quoted (isQuote : IsQuote quote) (text : String) :
    stringValue (quoted quote text) = text := by
  rw [quoted_eq, stringValue_enclosed isQuote (renders_escape isQuote)]

end Strings

/-- A literal that can be printed is written as one token. -/
theorem written_literal {symbols : SymbolTable} {value : Literal}
    (printable : value.Printable symbols) : Written value.token := by
  cases value with
  | int value => exact written_number value
  | float value => exact printable.elim
  | text constant =>
      exact written_enclosed (.inl rfl) (renders_escape (.inl rfl)) rfl piece_string
        (fun _ => rfl) _
  | tagged constant =>
      exact written_enclosed (.inr rfl) (renders_escape (.inr rfl)) rfl piece_tagged
        (fun _ => rfl) _

theorem written_variable {symbols : SymbolTable} {name : Symbol} {scope : Scope}
    (printable : scope.Printable symbols name) : Written (scope.token name) := by
  cases scope with
  | ofCall => exact written_local printable.2
  | ofConsole => exact written_global printable.2

end Token

end ScriptConsole
