import ScriptConsole.Proofs.Token.Lengths

/-! # Tokens that stand by themselves

A token is solid if it is read again, no more and no less, whenever white space or the end
comes after it (`ScriptConsole.Token.Solid`). Every token that is not a comment is solid.
-/

namespace ScriptConsole.Token

section Pieces

/-- Bytes at which punctuation is read: those that start nothing else. -/
structure Plain (first : UInt8) (second : Option UInt8) : Prop where
  notString : first ≠ '"'.toUInt8
  notTagged : first ≠ '\''.toUInt8
  notName : isNameStart first = false
  notDigit : isDigit first = false
  notFraction : (first = '.'.toUInt8 && second.any isDigit) = false
  notLocal : (first = '%'.toUInt8 && second.any isNameStart) = false
  notGlobal : (first = '$'.toUInt8 && second.any isNameStart) = false
  notLine : (first = '/'.toUInt8 && second = some '/'.toUInt8) = false
  notBlock : (first = '/'.toUInt8 && second = some '*'.toUInt8) = false
  notSpace : isSpace first = false

variable {first : UInt8} {rest : List UInt8}

theorem piece_string (rest : List UInt8) :
    piece '"'.toUInt8 rest = stringPiece .string '"'.toUInt8 rest :=
  rfl

theorem piece_tagged (rest : List UInt8) :
    piece '\''.toUInt8 rest = stringPiece .tagged '\''.toUInt8 rest :=
  rfl

theorem piece_identifier (start : isNameStart first = true) :
    piece first rest = .ok (.token .identifier, identifierLength (first :: rest)) := by
  have notString : first ≠ '"'.toUInt8 := by
    rintro rfl
    exact absurd start (by decide)
  have notTagged : first ≠ '\''.toUInt8 := by
    rintro rfl
    exact absurd start (by decide)
  simp only [piece, notString, notTagged, start, ↓reduceIte]

/-- No name begins with a digit. -/
theorem isNameStart_eq_false_of_isDigit {byte : UInt8} (digit : isDigit byte = true) :
    isNameStart byte = false := by
  have low : '0'.toUInt8.toNat = 48 := rfl
  simp only [isDigit, Bool.and_eq_true, decide_eq_true_eq, UInt8.le_iff_toNat_le] at digit
  simp only [isNameStart, isLetter, Bool.or_eq_false_iff, Bool.and_eq_false_iff,
    decide_eq_false_iff_not, UInt8.le_iff_toNat_le, ← UInt8.toNat_inj]
  obtain ⟨above, below⟩ := digit
  have nine : '9'.toUInt8.toNat = 57 := rfl
  have lowerCase : 'a'.toUInt8.toNat = 97 := rfl
  have upperCase : 'A'.toUInt8.toNat = 65 := rfl
  have underscore : '_'.toUInt8.toNat = 95 := rfl
  omega

/-- What starts like a number is read as a number, or refused as one. -/
theorem piece_number
    (start : (isDigit first || first = '.'.toUInt8 && rest.head?.any isDigit) = true) :
    piece first rest =
      (numberLength (first :: rest)).map fun length => (.token .number, length) := by
  have starts : isDigit first = true ∨ first = '.'.toUInt8 := by
    rw [Bool.or_eq_true, Bool.and_eq_true, decide_eq_true_eq] at start
    exact start.imp_right And.left
  have notString : first ≠ '"'.toUInt8 := by
    rintro rfl
    exact absurd starts (by decide)
  have notTagged : first ≠ '\''.toUInt8 := by
    rintro rfl
    exact absurd starts (by decide)
  have notName : isNameStart first = false := by
    rcases starts with digit | rfl
    · exact isNameStart_eq_false_of_isDigit digit
    · rfl
  simp only [piece, notString, notTagged, notName, start, Bool.false_eq_true, ↓reduceIte]

theorem piece_local (named : rest.head?.any isNameStart = true) :
    piece '%'.toUInt8 rest = .ok (.token .localName, nameLength rest + 1) := by
  simp only [piece, named]
  rfl

theorem piece_global (named : rest.head?.any isNameStart = true) :
    piece '$'.toUInt8 rest = .ok (.token .globalName, segmentsLength rest + 1) := by
  simp only [piece, named]
  rfl

theorem piece_line (rest : List UInt8) :
    piece '/'.toUInt8 ('/'.toUInt8 :: rest) =
      .ok (.token .lineComment, lineLength ('/'.toUInt8 :: '/'.toUInt8 :: rest)) :=
  rfl

theorem piece_block (rest : List UInt8) :
    piece '/'.toUInt8 ('*'.toUInt8 :: rest) =
      match commentLength? 2 false rest with
      | some length => .ok (.token .blockComment, length)
      | none => .error (0, .unterminatedComment) :=
  rfl

theorem piece_space (space : isSpace first = true) : piece first rest = .ok (.space, 1) := by
  rcases isSpace_cases space with rfl | rfl | rfl | rfl | rfl <;> rfl

theorem piece_plain (plain : Plain first rest.head?) :
    piece first rest =
      match Punct.find? (first :: rest) with
      | some (punct, length) => .ok (.token (.punct punct), length)
      | none => .error (0, .unexpectedCharacter) := by
  rcases found : Punct.find? (first :: rest) with _ | ⟨punct, length⟩ <;>
    simp only [piece, plain.notString, plain.notTagged, plain.notName, plain.notDigit,
      plain.notFraction, plain.notLocal, plain.notGlobal, plain.notLine, plain.notBlock,
      plain.notSpace, found, Bool.or_self, Bool.false_eq_true, ↓reduceIte]

/-- What can stand at the start of bytes. -/
theorem piece_cases (first : UInt8) (rest : List UInt8) :
    first = '"'.toUInt8 ∨ first = '\''.toUInt8 ∨ isNameStart first = true ∨
      (isDigit first || first = '.'.toUInt8 && rest.head?.any isDigit) = true ∨
      (first = '%'.toUInt8 ∧ rest.head?.any isNameStart = true) ∨
      (first = '$'.toUInt8 ∧ rest.head?.any isNameStart = true) ∨
      (∃ more, first = '/'.toUInt8 ∧ rest = '/'.toUInt8 :: more) ∨
      (∃ more, first = '/'.toUInt8 ∧ rest = '*'.toUInt8 :: more) ∨
      isSpace first = true ∨ Plain first rest.head? := by
  refine Classical.byContradiction fun none => ?_
  simp only [not_or, Bool.not_eq_true, Bool.or_eq_false_iff, not_and, not_exists] at none
  obtain ⟨notString, notTagged, notName, ⟨notDigit, notFraction⟩, notLocal, notGlobal, notLine,
    notBlock, notSpace, notPlain⟩ := none
  have noSlash (byte : UInt8) (other : ∀ more, first = '/'.toUInt8 → ¬ rest = byte :: more) :
      (first = '/'.toUInt8 && rest.head? = some byte) = false := by
    rw [← Bool.not_eq_true, Bool.and_eq_true, decide_eq_true_eq, decide_eq_true_eq]
    rintro ⟨slash, head⟩
    obtain ⟨more, rfl⟩ := List.head?_eq_some_iff.mp head
    exact other more slash rfl
  have noName (byte : UInt8) (other : first = byte → rest.head?.any isNameStart = false) :
      (first = byte && rest.head?.any isNameStart) = false := by
    rw [Bool.and_eq_false_imp, decide_eq_true_eq]
    exact other
  exact notPlain ⟨notString, notTagged, notName, notDigit, notFraction, noName _ notLocal,
    noName _ notGlobal, noSlash _ notLine, noSlash _ notBlock, notSpace⟩

end Pieces

/-- A token that is not a comment and that is read again whenever what comes after it stops.
It is on one line and does not end with a carriage return. -/
structure Solid (kind : TokenKind) (text : List UInt8) : Prop where
  proper : kind.isComment = false
  line : '\n'.toUInt8 ∉ text
  last : text.getLast? ≠ some '\r'.toUInt8
  reads : ∃ first body, text = first :: body ∧
    ∀ tail, Stops tail → piece first (body ++ tail) = .ok (.token kind, body.length + 1)

/-- What the bytes after a first one start with, and its length: a solid token, a comment or
white space. -/
inductive Starts (first : UInt8) (rest : List UInt8) : Piece → Nat → Prop
  | solid {kind body after} (split : rest = body ++ after) (solid : Solid kind (first :: body)) :
    Starts first rest (.token kind) (body.length + 1)
  | comment {kind body after} (split : rest = body ++ after) (comment : kind.isComment = true) :
    Starts first rest (.token kind) (body.length + 1)
  | space (blank : isSpace first = true) : Starts first rest .space 1

section Solid

variable {first : UInt8} {rest : List UInt8}

/-- What has no white space in it is solid if it is read again. -/
theorem solid_of_spaceless {kind : TokenKind} {body : List UInt8} (proper : kind.isComment = false)
    (spaceless : ∀ byte ∈ first :: body, isSpace byte = false)
    (reads : ∀ tail, Stops tail →
      piece first (body ++ tail) = .ok (.token kind, body.length + 1)) :
    Solid kind (first :: body) where
  proper := proper
  line within := absurd (spaceless _ within) (by decide)
  last end_ := absurd (spaceless _ (List.mem_of_getLast? end_)) (by decide)
  reads := ⟨first, body, rfl, reads⟩

/-- A string is solid: it ends at its own quote, whatever comes after it. -/
theorem starts_string {kind : TokenKind} {quote : UInt8} {read : Piece} {length : Nat}
    (opens : ∀ rest, piece quote rest = stringPiece kind quote rest)
    (proper : kind.isComment = false) (notNewline : '\n'.toUInt8 ≠ quote)
    (notReturn : quote ≠ '\r'.toUInt8)
    (taken : piece quote rest = .ok (read, length)) : Starts quote rest read length := by
  rw [opens, stringPiece] at taken
  split at taken
  next total closed =>
    obtain ⟨rfl, rfl⟩ : Piece.token kind = read ∧ total = length := by simpa using taken
    obtain ⟨text, after, rfl, counted, inside, plain, unescaped⟩ := exists_inside closed
    have measured : (text ++ [quote]).length + 1 = total := by
      rw [List.length_append, List.length_singleton]
      omega
    have split : text ++ quote :: after = (text ++ [quote]) ++ after := by
      rw [List.append_assoc, List.singleton_append]
    rw [← measured]
    refine .solid split ⟨proper, ?_, ?_, quote, text ++ [quote], rfl, ?_⟩
    · simp only [List.mem_cons, List.mem_append, List.not_mem_nil, notNewline,
        inside.not_mem_newline, or_self, not_false_eq_true]
    · rw [← List.cons_append, List.getLast?_concat]
      exact fun same => notReturn (Option.some.inj same)
    · intro tail _
      rw [opens, stringPiece, List.append_assoc, List.singleton_append,
        inside.stringLength?_eq plain unescaped, ← counted, measured]
  next => contradiction

/-- A text at the start of bytes that is not empty has the first byte of them. -/
theorem exists_body {text after : List UInt8} (split : first :: rest = text ++ after)
    (positive : 0 < text.length) : ∃ body, text = first :: body ∧ rest = body ++ after := by
  cases text with
  | nil => contradiction
  | cons byte body =>
      obtain ⟨rfl, same⟩ := List.cons.inj split
      exact ⟨body, rfl, same⟩

theorem exists_head {class_ : UInt8 → Bool} (head : rest.head?.any class_ = true) :
    ∃ byte more, rest = byte :: more ∧ class_ byte = true := by
  cases rest with
  | nil => exact nomatch head
  | cons byte more => exact ⟨byte, more, rfl, head⟩

theorem nameLength_cons (member : isNameRest first = true) :
    nameLength (first :: rest) = nameLength rest + 1 := by
  unfold nameLength
  rw [List.takeWhile_cons_of_pos member, List.length_cons]

theorem isNameRest_of_isNameStart (start : isNameStart first = true) : isNameRest first = true := by
  unfold isNameRest
  rw [start, Bool.true_or]

theorem identifierLength_pos (start : isNameStart first = true) :
    0 < identifierLength (first :: rest) := by
  unfold identifierLength
  rw [nameLength_cons (isNameRest_of_isNameStart start)]
  dsimp only
  split <;> omega

/-- An identifier is solid, with the dollar sign of a switch over texts as part of it. -/
theorem starts_identifier {read : Piece} {length : Nat} (start : isNameStart first = true)
    (taken : piece first rest = .ok (read, length)) : Starts first rest read length := by
  rw [piece_identifier start] at taken
  obtain ⟨rfl, rfl⟩ :
      Piece.token .identifier = read ∧ identifierLength (first :: rest) = length := by
    simpa using taken
  obtain ⟨text, after, split, measured, spaceless, firm⟩ := firm_identifierLength (first :: rest)
  obtain ⟨body, rfl, rfl⟩ := exists_body split (measured ▸ identifierLength_pos start)
  rw [← measured]
  refine .solid rfl (solid_of_spaceless rfl spaceless ?_)
  intro tail stops
  rw [piece_identifier start, ← List.cons_append, firm tail stops, List.length_cons]

/-- A number is solid, as its length is seen from its own bytes. -/
theorem starts_number {read : Piece} {length : Nat}
    (start : (isDigit first || first = '.'.toUInt8 && rest.head?.any isDigit) = true)
    (taken : piece first rest = .ok (read, length)) : Starts first rest read length := by
  rw [piece_number start] at taken
  obtain ⟨measure, accepted, same⟩ : ∃ measure, numberLength (first :: rest) = .ok measure ∧
      (Piece.token .number, measure) = (read, length) := by
    cases counted : numberLength (first :: rest) with
    | error => rw [counted] at taken; contradiction
    | ok measure => rw [counted] at taken; exact ⟨measure, rfl, Except.ok.inj taken⟩
  obtain ⟨rfl, rfl⟩ : Piece.token .number = read ∧ measure = length := by simpa using same
  obtain ⟨text, after, split, measured, isNumber⟩ := exists_number start accepted
  obtain ⟨_, body, rfl, starts⟩ := isNumber.exists_start
  obtain ⟨rfl, rfl⟩ := List.cons.inj split
  rw [← measured]
  refine .solid rfl (solid_of_spaceless rfl isNumber.spaceless ?_)
  intro tail stops
  rw [piece_number (starts tail), ← List.cons_append, isNumber.numberLength_eq stops]
  rfl

/-- A name behind a mark is solid if its length is firm. -/
theorem starts_marked {kind : TokenKind} {mark : UInt8} {read : Piece} {length : Nat}
    {measure : List UInt8 → Nat}
    (opens : ∀ rest, rest.head?.any isNameStart = true →
      piece mark rest = .ok (.token kind, measure rest + 1))
    (positive : ∀ first rest, isNameStart first = true → 0 < measure (first :: rest))
    (firm : Firm measure rest) (proper : kind.isComment = false) (ink : isSpace mark = false)
    (named : rest.head?.any isNameStart = true)
    (taken : piece mark rest = .ok (read, length)) : Starts mark rest read length := by
  rw [opens rest named] at taken
  obtain ⟨rfl, rfl⟩ : Piece.token kind = read ∧ measure rest + 1 = length := by simpa using taken
  obtain ⟨text, after, split, measured, spaceless, firm⟩ := firm
  obtain ⟨byte, more, rfl, start⟩ := exists_head named
  obtain ⟨body, rfl, rfl⟩ := exists_body split (measured ▸ positive byte more start)
  have split : byte :: (body ++ after) = (byte :: body) ++ after := rfl
  rw [← measured]
  refine .solid split
    (solid_of_spaceless proper (List.forall_mem_cons.mpr ⟨ink, spaceless⟩) ?_)
  intro tail stops
  have again : ((byte :: body) ++ tail).head?.any isNameStart = true := by simpa using start
  rw [opens _ again, firm tail stops]

theorem segmentsLength_pos (start : isNameStart first = true) :
    0 < segmentsLength (first :: rest) := by
  rw [segmentsLength.eq_def]
  simp only [isNameRest_of_isNameStart start, ↓reduceIte, Nat.succ_pos]

theorem starts_local {read : Piece} {length : Nat}
    (named : rest.head?.any isNameStart = true)
    (taken : piece '%'.toUInt8 rest = .ok (read, length)) :
    Starts '%'.toUInt8 rest read length := by
  refine starts_marked (fun _ named => piece_local named) ?_ (firm_nameLength rest) rfl rfl
    named taken
  intro first rest start
  rw [nameLength_cons (isNameRest_of_isNameStart start)]
  exact Nat.succ_pos _

theorem starts_global {read : Piece} {length : Nat}
    (named : rest.head?.any isNameStart = true)
    (taken : piece '$'.toUInt8 rest = .ok (read, length)) :
    Starts '$'.toUInt8 rest read length :=
  starts_marked (fun _ named => piece_global named) (fun _ _ start => segmentsLength_pos start)
    (firm_segmentsLength rest) rfl rfl named taken

/-- A byte of punctuation stays one before something that stops. -/
theorem Plain.stops {second : Option UInt8} (plain : Plain first second) {tail : List UInt8}
    (stops : Stops tail) : Plain first tail.head? := by
  have apart (byte : UInt8) (ink : isSpace byte = false) :
      (first = '/'.toUInt8 && tail.head? = some byte) = false := by
    rw [← Bool.not_eq_true, Bool.and_eq_true, decide_eq_true_eq, decide_eq_true_eq]
    rintro ⟨-, head⟩
    exact absurd (stops byte head) (by rw [ink]; decide)
  exact {
    notString := plain.notString
    notTagged := plain.notTagged
    notName := plain.notName
    notDigit := plain.notDigit
    notFraction := by rw [stops.any_head inky_isDigit, Bool.and_false]
    notLocal := by rw [stops.any_head inky_isNameStart, Bool.and_false]
    notGlobal := by rw [stops.any_head inky_isNameStart, Bool.and_false]
    notLine := apart _ rfl
    notBlock := apart _ rfl
    notSpace := plain.notSpace }

/-- Punctuation is solid: the longest sign was found, and stays the longest. -/
theorem starts_plain {read : Piece} {length : Nat} (plain : Plain first rest.head?)
    (taken : piece first rest = .ok (read, length)) : Starts first rest read length := by
  rw [piece_plain plain] at taken
  split at taken
  next punct count found =>
    obtain ⟨rfl, rfl⟩ : Piece.token (.punct punct) = read ∧ count = length := by simpa using taken
    obtain ⟨text, after, split, measured, some, spaceless, again⟩ := find?_firm found
    obtain ⟨body, rfl, rfl⟩ := exists_body split (List.length_pos_iff.mpr some)
    rw [← measured]
    refine .solid rfl (solid_of_spaceless rfl spaceless ?_)
    intro tail stops
    have still : Plain first (body ++ tail).head? := by
      cases body with
      | nil => exact plain.stops stops
      | cons byte body => exact plain
    have read : Punct.find? (first :: (body ++ tail)) = Option.some (punct, count) :=
      again tail stops
    rw [piece_plain still, read, ← measured]
    rfl
  next => contradiction

theorem starts_comment {kind : TokenKind} {length : Nat} (comment : kind.isComment = true)
    (positive : 0 < length) (within : length ≤ rest.length + 1) :
    Starts first rest (.token kind) length := by
  obtain ⟨length, rfl⟩ := Nat.exists_eq_succ_of_ne_zero (Nat.ne_of_gt positive)
  have measured : (rest.take length).length = length := by
    rw [List.length_take]
    omega
  rw [← measured]
  exact .comment (List.take_append_drop length rest).symm comment

theorem starts_line {more : List UInt8} {read : Piece} {length : Nat}
    (taken : piece '/'.toUInt8 ('/'.toUInt8 :: more) = .ok (read, length)) :
    Starts '/'.toUInt8 ('/'.toUInt8 :: more) read length := by
  rw [piece_line] at taken
  obtain ⟨rfl, rfl⟩ : Piece.token .lineComment = read ∧ _ = length := by simpa using taken
  have within : lineLength ('/'.toUInt8 :: '/'.toUInt8 :: more) ≤ more.length + 2 :=
    (List.takeWhile_prefix _).length_le
  exact starts_comment rfl (Nat.succ_pos _) within

/-- A comment that is closed has its delimiter among the bytes. -/
theorem commentLength?_bounds {length total : Nat} {afterStar : Bool} {bytes : List UInt8}
    (closed : commentLength? length afterStar bytes = some total) :
    length < total ∧ total ≤ length + bytes.length := by
  induction bytes generalizing length afterStar with
  | nil => contradiction
  | cons byte bytes ih =>
      rw [commentLength?] at closed
      rw [List.length_cons]
      split at closed
      · have := Option.some.inj closed
        omega
      · have := ih closed
        omega

theorem starts_block {more : List UInt8} {read : Piece} {length : Nat}
    (taken : piece '/'.toUInt8 ('*'.toUInt8 :: more) = .ok (read, length)) :
    Starts '/'.toUInt8 ('*'.toUInt8 :: more) read length := by
  rw [piece_block] at taken
  split at taken
  next total closed =>
    obtain ⟨rfl, rfl⟩ : Piece.token .blockComment = read ∧ total = length := by simpa using taken
    obtain ⟨longer, within⟩ := commentLength?_bounds closed
    exact starts_comment rfl (by omega) (by rw [List.length_cons]; omega)
  next => contradiction

/-- What is read is solid, a comment or white space. -/
theorem starts_of_piece {read : Piece} {length : Nat}
    (taken : piece first rest = .ok (read, length)) : Starts first rest read length := by
  rcases piece_cases first rest with rfl | rfl | start | start | ⟨rfl, named⟩ | ⟨rfl, named⟩ |
    ⟨more, rfl, rfl⟩ | ⟨more, rfl, rfl⟩ | blank | plain
  · exact starts_string piece_string rfl (by decide) (by decide) taken
  · exact starts_string piece_tagged rfl (by decide) (by decide) taken
  · exact starts_identifier start taken
  · exact starts_number start taken
  · exact starts_local named taken
  · exact starts_global named taken
  · exact starts_line taken
  · exact starts_block taken
  · rw [piece_space blank] at taken
    obtain ⟨rfl, rfl⟩ : Piece.space = read ∧ 1 = length := by simpa using taken
    exact .space blank
  · exact starts_plain plain taken

end Solid

end ScriptConsole.Token
