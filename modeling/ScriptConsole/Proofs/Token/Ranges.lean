import ScriptConsole.Proofs.Token.Cut

/-! # Where tokens stand

The tokens of an accepted source are ranges of it, in order and apart from one another, with
nothing but white space outside of them (`ScriptConsole.Token.Tokenized`). What is recorded of
each token is enough to cut its text out of the source again.
-/

namespace ScriptConsole

namespace Position

theorem offset_advance (position : Position) (bytes : List UInt8) :
    (position.advance bytes).offset = position.offset + bytes.length := by
  induction bytes generalizing position with
  | nil => rfl
  | cons byte bytes ih =>
      have next : (position.step byte).offset = position.offset + 1 := rfl
      rw [List.length_cons]
      exact (ih (position.step byte)).trans (by omega)

/-- The line goes up by one with every newline that is passed. -/
theorem line_advance (position : Position) (bytes : List UInt8) :
    (position.advance bytes).line = position.line + bytes.count '\n'.toUInt8 := by
  induction bytes generalizing position with
  | nil => rfl
  | cons byte bytes ih =>
      refine (ih (position.step byte)).trans ?_
      rw [List.count_cons]
      unfold step
      by_cases newline : byte = '\n'.toUInt8
      · simp only [newline, ↓reduceIte, beq_self_eq_true]
        omega
      · simp only [newline, ↓reduceIte, beq_iff_eq, Nat.add_zero]

theorem advance_append (position : Position) (first second : List UInt8) :
    position.advance (first ++ second) = (position.advance first).advance second :=
  List.foldl_append

/-- A position in a source is on the line that the newlines before it say. -/
def OnLine (bytes : List UInt8) (position : Position) : Prop :=
  position.line = 1 + (bytes.take position.offset).count '\n'.toUInt8

theorem onLine_advance (before rest : List UInt8) :
    OnLine (before ++ rest) (start.advance before) := by
  have offset : (start.advance before).offset = before.length :=
    (offset_advance start before).trans (Nat.zero_add _)
  unfold OnLine
  rw [offset, List.take_left, line_advance]
  rfl

/-- The numbers of a position in a source that is not too long fit into a word. -/
theorem OnLine.fits {bytes : List UInt8} {position : Position} (onLine : OnLine bytes position)
    (inside : position.offset ≤ bytes.length) (short : bytes.length + 1 < UInt32.size) :
    position.line < UInt32.size ∧ position.offset < UInt32.size := by
  have newlines : (bytes.take position.offset).count '\n'.toUInt8 ≤ position.offset :=
    Nat.le_trans List.count_le_length (List.length_take_le _ _)
  unfold OnLine at onLine
  omega

end Position

/-- What the text of a token of a kind looks like, as far as parts of it are cut out. -/
def TokenKind.Spells (kind : TokenKind) (text : List UInt8) : Prop :=
  match kind with
  | .punct sign => text = Utf8.encode sign.spelling
  | .string => ∃ inner, text = '"'.toUInt8 :: (inner ++ ['"'.toUInt8])
  | .tagged => ∃ inner, text = '\''.toUInt8 :: (inner ++ ['\''.toUInt8])
  | .localName => ∃ name, text = '%'.toUInt8 :: name ∧ name.head?.any Token.isNameStart = true
  | .globalName => ∃ name, text = '$'.toUInt8 :: name ∧ name.head?.any Token.isNameStart = true
  | .identifier => text.head?.any Token.isNameStart = true
  | .number => text.head?.any (fun byte => isDigit byte || byte = '.'.toUInt8) = true
  | .lineComment => ['/'.toUInt8, '/'.toUInt8] <+: text
  | .blockComment => ['/'.toUInt8, '*'.toUInt8] <+: text

/-- How many bytes of a token are cut off its start and its end when its contents are read. -/
def TokenKind.margins : TokenKind → Nat × Nat
  | .string | .tagged => (1, 1)
  | .localName | .globalName => (1, 0)
  | _ => (0, 0)

namespace Token

section Definitions

/-- The bytes of a source between two offsets, if these are in order and inside of it. -/
def section? (bytes : List UInt8) (first last : Nat) : Option (List UInt8) :=
  if first ≤ last ∧ last ≤ bytes.length then some ((bytes.drop first).take (last - first))
  else none

/-- What is recorded of tokens: where each starts, and where it ends if its kind does not say
how long it is. -/
inductive Record where
  | start (kind : TokenKind) (position : Position)
  | stop (position : Position)

/-- What is recorded of a token. -/
def records (token : Token) : List Record :=
  match token.kind with
  | .punct _ => [.start token.kind token.span.first]
  | _ => [.start token.kind token.span.first, .stop token.span.last]

/-- The token of a kind between two positions, cut out of its source. -/
def cutOut? (bytes : List UInt8) (kind : TokenKind) (first last : Position) : Option Token :=
  (section? bytes first.offset last.offset).map fun text => ⟨kind, ⟨first, last⟩, text⟩

/-- The tokens that were recorded, cut out of their source. Where punctuation ends follows from
its spelling. -/
def readRecords? (bytes : List UInt8) : List Record → Option (List Token)
  | [] => some []
  | .start (.punct punct) first :: rest => do
    let last := ⟨first.line, first.offset + (Utf8.encode punct.spelling).length⟩
    return (← cutOut? bytes (.punct punct) first last) :: (← readRecords? bytes rest)
  | .start kind first :: .stop last :: rest => do
    return (← cutOut? bytes kind first last) :: (← readRecords? bytes rest)
  | _ => none

/-- A token stands in a source where it is recorded. -/
structure StandsIn (bytes : List UInt8) (token : Token) : Prop where
  nonempty : token.span.first.offset < token.span.last.offset
  inside : token.span.last.offset ≤ bytes.length
  text : token.text =
    (bytes.drop token.span.first.offset).take (token.span.last.offset - token.span.first.offset)
  firstLine : token.span.first.OnLine bytes
  lastLine : token.span.last.OnLine bytes
  spells : token.kind.Spells token.text
  contents : (section? token.text token.kind.margins.1
    (token.text.length - token.kind.margins.2)).isSome = true
  /-- Punctuation is as long as it can be there. -/
  longest : ∀ punct, token.kind = .punct punct → ∀ entry ∈ Punct.byteTable,
    entry.1 <+: bytes.drop token.span.first.offset → entry.1.length ≤ token.text.length

/-- The tokens fill a source up to white space. -/
structure Tokenized (bytes : List UInt8) (tokens : List Token) : Prop where
  stands : ∀ token ∈ tokens, token.StandsIn bytes
  apart : tokens.Pairwise fun first second => first.span.last.offset ≤ second.span.first.offset
  blank : ∀ offset byte, bytes[offset]? = some byte →
    (∃ token ∈ tokens, token.span.first.offset ≤ offset ∧ offset < token.span.last.offset) ∨
      isSpace byte = true
  records : readRecords? bytes (tokens.flatMap Token.records) = some tokens
  /-- Before no place are more braces closed than opened. -/
  braces : ∀ front, front <+: tokens →
    front.countP (·.kind = .punct .closeCurly) ≤ front.countP (·.kind = .punct .openCurly)
  balanced : tokens.countP (·.kind = .punct .closeCurly) =
    tokens.countP (·.kind = .punct .openCurly)
  paired : Paired bytes
  /-- All numbers of a source that is not too long fit into a word. -/
  fits : bytes.length + 1 < UInt32.size → ∀ token ∈ tokens,
    token.span.first.line < UInt32.size ∧ token.span.first.offset < UInt32.size ∧
      token.span.last.line < UInt32.size ∧ token.span.last.offset < UInt32.size

end Definitions

section Pieces

variable {first : UInt8} {body rest : List UInt8}

theorem spelling_of_mem_byteTable : ∀ entry ∈ Punct.byteTable,
    entry.1 = Utf8.encode entry.2.spelling ∧ '\n'.toUInt8 ∉ entry.1 := by
  decide +kernel

/-- No spelling in the table starts with one that comes before it. -/
theorem byteTable_pairwise :
    Punct.byteTable.Pairwise fun earlier later => ¬ earlier.1 <+: later.1 := by
  decide +kernel

/-- The punctuation that is found is spelled by the bytes, and no longer one is. -/
theorem find?_longest {bytes : List UInt8} {punct : Punct} {length : Nat}
    (found : Punct.find? bytes = some (punct, length)) :
    bytes.take length = Utf8.encode punct.spelling ∧
      ∀ entry ∈ Punct.byteTable, entry.1 <+: bytes → entry.1.length ≤ length := by
  obtain ⟨⟨text, read⟩, first, same⟩ := Option.map_eq_some_iff.mp found
  obtain ⟨rfl, rfl⟩ := Prod.mk.inj same
  obtain ⟨matched, earlier, later, table, none⟩ := List.find?_eq_some_iff_append.mp first
  have starts : text <+: bytes := List.isPrefixOf_iff_prefix.mp matched
  have member : (text, read) ∈ Punct.byteTable := by
    rw [table]
    exact List.mem_append_right earlier List.mem_cons_self
  constructor
  · rw [← List.prefix_iff_eq_take.mp starts]
    exact (spelling_of_mem_byteTable _ member).1
  · intro entry inTable within
    have order := byteTable_pairwise
    rw [table] at inTable order
    rcases List.mem_append.mp inTable with before | behind
    · have absurd := none entry before
      rw [List.isPrefixOf_iff_prefix.mpr within] at absurd
      contradiction
    · rcases List.mem_cons.mp behind with rfl | after
      · exact Nat.le_refl _
      · -- A longer spelling that comes later would start with the one that was found.
        refine Nat.le_of_not_lt fun longer => ?_
        have inside : text <+: entry.1 :=
          List.prefix_of_prefix_length_le starts within (Nat.le_of_lt longer)
        have apart := (List.pairwise_append.mp order).2.1
        exact (List.pairwise_cons.mp apart).1 entry after inside

/-- Bytes behind the first one that belong to the token start as all of them do. -/
theorem head?_body (positive : 0 < body.length) : (body ++ rest).head? = body.head? := by
  obtain ⟨byte, more, rfl⟩ := List.exists_cons_of_length_pos positive
  rfl

/-- What opens a string is a string of its kind, which ends with the quote that it begins with. -/
theorem quoted_of_piece {opener kind : TokenKind} {quote : UInt8}
    (opens : ∀ rest, piece quote rest = stringPiece opener quote rest)
    (taken : piece quote (body ++ rest) = .ok (.token kind, body.length + 1)) :
    kind = opener ∧ ∃ inner, quote :: body = quote :: (inner ++ [quote]) ∧ Inside quote inner := by
  rw [opens, stringPiece] at taken
  split at taken
  next total closed =>
    obtain ⟨same, measured⟩ := Prod.mk.inj (Except.ok.inj taken)
    obtain ⟨text, after, split, counted, inside, _⟩ := exists_inside closed
    have long : body.length = (text ++ [quote]).length := by
      rw [List.length_append, List.length_singleton]
      omega
    have whole : body ++ rest = (text ++ [quote]) ++ after := by
      rw [split, List.append_assoc, List.singleton_append]
    exact ⟨(Piece.token.inj same).symm, text, by rw [(List.append_inj whole long).1], inside⟩
  next => contradiction

/-- A name behind a mark is a token of the kind of the mark, and the first byte behind the mark
begins the name. -/
theorem named_of_piece {marked kind : TokenKind} {measure : List UInt8 → Nat}
    (positive : ∀ first rest, isNameStart first = true → 0 < measure (first :: rest))
    (named : (body ++ rest).head?.any isNameStart = true)
    (taken : Except.ok (ε := Nat × Complaint) (Piece.token marked, measure (body ++ rest) + 1) =
      .ok (.token kind, body.length + 1)) :
    kind = marked ∧ body.head?.any isNameStart = true := by
  obtain ⟨same, measured⟩ := Prod.mk.inj (Except.ok.inj taken)
  obtain ⟨byte, more, split, start⟩ := exists_head named
  have some : 0 < measure (body ++ rest) := split ▸ positive byte more start
  rw [head?_body (by omega)] at named
  exact ⟨(Piece.token.inj same).symm, named⟩

theorem nameLength_pos (first : UInt8) (rest : List UInt8) (start : isNameStart first = true) :
    0 < nameLength (first :: rest) := by
  rw [nameLength_cons (isNameRest_of_isNameStart start)]
  exact Nat.succ_pos _

/-- A comment has both bytes of the mark that opens it. -/
theorem opened_of_piece {second : UInt8} {more : List UInt8}
    (split : body ++ rest = second :: more) (two : 0 < body.length) :
    [first, second] <+: first :: body := by
  have head : (body ++ rest).head? = body.head? := head?_body two
  rw [split] at head
  obtain ⟨after, rfl⟩ := List.head?_eq_some_iff.mp head.symm
  exact List.prefix_append [first, second] after

/-- The text of a token that is read is what its kind says, and punctuation is as long as it
can be. -/
theorem spells_of_piece {kind : TokenKind}
    (taken : piece first (body ++ rest) = .ok (.token kind, body.length + 1)) :
    kind.Spells (first :: body) ∧
      ∀ punct, kind = .punct punct → ∀ entry ∈ Punct.byteTable,
        entry.1 <+: first :: (body ++ rest) → entry.1.length ≤ body.length + 1 := by
  rcases piece_cases first (body ++ rest) with rfl | rfl | start | start | ⟨rfl, named⟩ |
    ⟨rfl, named⟩ | ⟨more, rfl, split⟩ | ⟨more, rfl, split⟩ | blank | plain
  · obtain ⟨rfl, inner, quoted, -⟩ := quoted_of_piece piece_string taken
    exact ⟨⟨inner, quoted⟩, nofun⟩
  · obtain ⟨rfl, inner, quoted, -⟩ := quoted_of_piece piece_tagged taken
    exact ⟨⟨inner, quoted⟩, nofun⟩
  · rw [piece_identifier start] at taken
    obtain rfl := Piece.token.inj (Prod.mk.inj (Except.ok.inj taken)).1
    exact ⟨start, nofun⟩
  · rw [piece_number start] at taken
    cases counted : numberLength (first :: (body ++ rest)) with
    | error ahead =>
        rw [counted] at taken
        contradiction
    | ok length =>
        rw [counted] at taken
        obtain rfl := Piece.token.inj (Prod.mk.inj (Except.ok.inj taken)).1
        refine ⟨?_, nofun⟩
        change (isDigit first || first = '.'.toUInt8) = true
        rw [Bool.or_eq_true, Bool.and_eq_true] at start
        rw [Bool.or_eq_true]
        exact start.imp_right And.left
  · rw [piece_local named] at taken
    obtain ⟨rfl, start⟩ := named_of_piece nameLength_pos named taken
    exact ⟨⟨body, rfl, start⟩, nofun⟩
  · rw [piece_global named] at taken
    obtain ⟨rfl, start⟩ := named_of_piece (fun _ _ => segmentsLength_pos) named taken
    exact ⟨⟨body, rfl, start⟩, nofun⟩
  · have whole := split ▸ taken
    rw [piece_line] at whole
    obtain ⟨same, measured⟩ := Prod.mk.inj (Except.ok.inj whole)
    obtain rfl := Piece.token.inj same
    have two : 1 < lineLength ('/'.toUInt8 :: '/'.toUInt8 :: more) :=
      Nat.succ_lt_succ (Nat.succ_pos _)
    exact ⟨opened_of_piece split (by omega), nofun⟩
  · have whole := split ▸ taken
    rw [piece_block] at whole
    split at whole
    next total closed =>
      obtain ⟨same, measured⟩ := Prod.mk.inj (Except.ok.inj whole)
      obtain rfl := Piece.token.inj same
      obtain ⟨longer, _⟩ := commentLength?_bounds closed
      exact ⟨opened_of_piece split (by omega), nofun⟩
    next => contradiction
  · rw [piece_space blank] at taken
    exact nomatch (Prod.mk.inj (Except.ok.inj taken)).1
  · rw [piece_plain plain] at taken
    split at taken
    next punct length found =>
      obtain ⟨same, rfl⟩ := Prod.mk.inj (Except.ok.inj taken)
      obtain rfl := Piece.token.inj same
      obtain ⟨spelled, longest⟩ := find?_longest found
      rw [List.take_succ_cons, List.take_left] at spelled
      exact ⟨spelled, fun _ _ => longest⟩
    next => contradiction

/-- The contents of a token are inside of it. -/
theorem contents_of_spells {kind : TokenKind} {text : List UInt8} (spells : kind.Spells text) :
    (section? text kind.margins.1 (text.length - kind.margins.2)).isSome = true := by
  have within : kind.margins.1 ≤ text.length - kind.margins.2 := by
    unfold TokenKind.Spells at spells
    unfold TokenKind.margins
    split
    · obtain ⟨inner, rfl⟩ := spells
      simp only [List.length_cons, List.length_append]
      omega
    · obtain ⟨inner, rfl⟩ := spells
      simp only [List.length_cons, List.length_append]
      omega
    · obtain ⟨name, rfl, _⟩ := spells
      exact Nat.succ_pos _
    · obtain ⟨name, rfl, _⟩ := spells
      exact Nat.succ_pos _
    · exact Nat.zero_le _
  unfold section?
  rw [if_pos ⟨within, Nat.sub_le _ _⟩]
  rfl

end Pieces

section Layout

variable {before bytes : List UInt8} {position : Position} {tokens : List Token} {token : Token}

/-- A token that was read stands where it was read: its span is that of its bytes, and its bytes are
spelled as its kind asks for. -/
theorem standsIn_of_piece {kind : TokenKind} {first : UInt8} {body rest : List UInt8}
    (taken : piece first (body ++ rest) = .ok (.token kind, body.length + 1)) :
    StandsIn (before ++ first :: (body ++ rest))
      ⟨kind, ⟨Position.start.advance before,
        (Position.start.advance before).advance (first :: body)⟩, first :: body⟩ := by
  obtain ⟨spells, longest⟩ := spells_of_piece taken
  have start : (Position.start.advance before).offset = before.length :=
    (Position.offset_advance _ _).trans (Nat.zero_add _)
  have stop : ((Position.start.advance before).advance (first :: body)).offset =
      before.length + (body.length + 1) := by
    rw [Position.offset_advance, start, List.length_cons]
  have whole : before ++ first :: (body ++ rest) = (before ++ first :: body) ++ rest := by
    rw [List.append_assoc, List.cons_append]
  exact {
    nonempty := by
      dsimp only
      omega
    inside := by
      dsimp only
      rw [stop, List.length_append, List.length_cons, List.length_append]
      omega
    text := by
      dsimp only
      rw [stop, start, List.drop_left, Nat.add_sub_cancel_left, List.take_succ_cons, List.take_left]
    firstLine := Position.onLine_advance before _
    lastLine := by
      dsimp only
      rw [← Position.advance_append, whole]
      exact Position.onLine_advance _ rest
    spells := spells
    contents := contents_of_spells spells
    longest := by
      dsimp only
      rw [start, List.drop_left]
      exact longest }

/-- Tokens that are laid out stand in the source behind what came before them. -/
theorem Laid.stands (laid : Laid position bytes tokens)
    (reached : position = Position.start.advance before) :
    ∀ token ∈ tokens, token.StandsIn (before ++ bytes) ∧
      before.length ≤ token.span.first.offset := by
  induction laid generalizing before with
  | nil => exact fun _ member => absurd member List.not_mem_nil
  | @space position first rest tokens blank next ih =>
      intro token member
      have behind := @ih (before ++ [first])
        (by rw [reached, Position.advance_append]; rfl) token member
      rw [List.append_assoc, List.length_append] at behind
      exact ⟨behind.1, by omega⟩
  | @token position kind first body rest tokens taken next ih =>
      subst reached
      refine List.forall_mem_cons.mpr ⟨⟨standsIn_of_piece taken, ?_⟩, ?_⟩
      · rw [Position.offset_advance]
        exact Nat.le_add_left _ _
      · intro token member
        have behind := @ih (before ++ first :: body)
          (Position.advance_append _ _ _).symm token member
        rw [List.append_assoc, List.length_append] at behind
        exact ⟨behind.1, by omega⟩

/-- No token begins before the ones in front of it end. -/
theorem Laid.apart (laid : Laid position bytes tokens)
    (reached : position = Position.start.advance before) :
    tokens.Pairwise fun first second => first.span.last.offset ≤ second.span.first.offset := by
  induction laid generalizing before with
  | nil => exact .nil
  | @space position first rest tokens blank next ih =>
      exact @ih (before ++ [first]) (by rw [reached, Position.advance_append]; rfl)
  | @token position kind first body rest tokens taken next ih =>
      have ended : position.advance (first :: body) =
          Position.start.advance (before ++ first :: body) := by
        rw [reached, Position.advance_append]
      refine .cons ?_ (ih ended)
      intro later member
      have behind := (next.stands ended later member).2
      dsimp only
      rw [ended, Position.offset_advance]
      exact Nat.le_trans (Nat.le_of_eq (Nat.zero_add _)) behind

/-- What is in no token is white space. -/
theorem Laid.blank (laid : Laid position bytes tokens) {index : Nat} {byte : UInt8}
    (there : bytes[index]? = some byte) :
    (∃ token ∈ tokens, token.span.first.offset ≤ position.offset + index ∧
      position.offset + index < token.span.last.offset) ∨ isSpace byte = true := by
  induction laid generalizing index with
  | nil => contradiction
  | @space position first rest tokens blank next ih =>
      cases index with
      | zero =>
          obtain rfl := Option.some.inj there
          exact .inr blank
      | succ index =>
          have moved : (position.step first).offset + index = position.offset + (index + 1) :=
            (Nat.add_assoc _ _ _).trans (congrArg _ (Nat.add_comm _ _))
          exact moved ▸ ih there
  | @token position kind first body rest tokens taken next ih =>
      have ended := Position.offset_advance position (first :: body)
      rw [List.length_cons] at ended
      by_cases within : index < body.length + 1
      · refine .inl ⟨_, List.mem_cons_self, Nat.le_add_right _ _, ?_⟩
        dsimp only
        omega
      · obtain ⟨index, rfl⟩ := Nat.exists_eq_add_of_le (Nat.le_of_not_lt within)
        have behind : rest[index]? = some byte := by
          rw [← there, ← List.cons_append,
            List.getElem?_append_right (by rw [List.length_cons]; omega),
            List.length_cons, Nat.add_sub_cancel_left]
        rcases ih behind with ⟨token, member, lower, upper⟩ | blank
        · exact .inl ⟨token, List.mem_cons_of_mem _ member, by omega, by omega⟩
        · exact .inr blank

end Layout

section Records

variable {bytes : List UInt8} {token : Token} {tokens : List Token}

/-- A token is cut out of its source between its positions. -/
theorem StandsIn.cutOut (stands : token.StandsIn bytes) :
    cutOut? bytes token.kind token.span.first token.span.last = some token := by
  unfold cutOut? section?
  rw [if_pos ⟨Nat.le_of_lt stands.nonempty, stands.inside⟩, Option.map_some, ← stands.text]

theorem newline_not_mem_spelling (punct : Punct) :
    '\n'.toUInt8 ∉ Utf8.encode punct.spelling := by
  cases punct <;> decide +kernel

/-- Punctuation ends on its line, as many bytes behind its start as it is spelled with. -/
theorem StandsIn.last_punct {punct : Punct} (stands : token.StandsIn bytes)
    (isPunct : token.kind = .punct punct) :
    token.span.last = ⟨token.span.first.line,
      token.span.first.offset + (Utf8.encode punct.spelling).length⟩ := by
  have spelled : token.text = Utf8.encode punct.spelling := by
    have spells := stands.spells
    rw [isPunct] at spells
    exact spells
  have measured : token.text.length = token.span.last.offset - token.span.first.offset := by
    have inside := stands.inside
    rw [stands.text, List.length_take, List.length_drop]
    omega
  have ended : token.span.last.offset = token.span.first.offset + token.text.length := by
    have nonempty := stands.nonempty
    omega
  have line : token.span.last.line = token.span.first.line := by
    have text := stands.text
    rw [← measured] at text
    have first := stands.firstLine
    have last := stands.lastLine
    unfold Position.OnLine at first last
    rw [ended, List.take_add, ← text, List.count_append, spelled,
      List.count_eq_zero.mpr (newline_not_mem_spelling punct), Nat.add_zero, ← first] at last
    exact last
  rw [← spelled, ← line, ← ended]

/-- Tokens that stand in a source are cut out of it again where they were recorded. -/
theorem readRecords?_records (stands : ∀ token ∈ tokens, token.StandsIn bytes) :
    readRecords? bytes (tokens.flatMap Token.records) = some tokens := by
  induction tokens with
  | nil => rfl
  | cons token tokens ih =>
      obtain ⟨here, later⟩ := List.forall_mem_cons.mp stands
      have cut := here.cutOut
      rw [List.flatMap_cons, records.eq_def]
      split
      next punct isPunct =>
        rw [here.last_punct isPunct, isPunct] at cut
        rw [isPunct, List.singleton_append, readRecords?, cut, ih later]
        rfl
      next notPunct =>
        rw [List.cons_append, List.singleton_append, readRecords?, cut, ih later]
        · rfl
        · exact notPunct

end Records

section Braces

variable {keys : List (TokenKind × List UInt8)}

/-- What is open after tokens was open before or opened by them, and not closed by them. -/
theorem countP_of_depthAfter? {depth left : Nat} (counted : depthAfter? depth keys = some left) :
    keys.countP (·.1 = .punct .openCurly) + depth =
      keys.countP (·.1 = .punct .closeCurly) + left := by
  induction keys generalizing depth with
  | nil =>
      obtain rfl := Option.some.inj counted
      rfl
  | cons key keys ih =>
      unfold depthAfter? at counted
      rw [List.foldlM_cons] at counted
      obtain ⟨next, one, rest⟩ := Option.bind_eq_some_iff.mp counted
      have later := ih rest
      unfold depth? at one
      rw [List.countP_cons, List.countP_cons]
      split at one
      next opens =>
        obtain rfl := Option.some.inj one
        simp only [opens, decide_true, ↓reduceIte, TokenKind.punct.injEq, reduceCtorEq,
          decide_false, Bool.false_eq_true, Nat.add_zero]
        omega
      next notOpen =>
        split at one
        next closes =>
          split at one
          next => contradiction
          next =>
            obtain rfl := Option.some.inj one
            simp only [closes, decide_true, ↓reduceIte, TokenKind.punct.injEq, reduceCtorEq,
              decide_false, Bool.false_eq_true, Nat.add_zero]
            omega
        next notClose =>
          obtain rfl := Option.some.inj one
          simp only [notOpen, notClose, decide_false, Bool.false_eq_true, ↓reduceIte, Nat.add_zero]
          omega

/-- No first tokens close more braces than they open, and all of them close as many. -/
theorem Balanced.countP (balanced : Balanced keys) :
    (∀ front, front <+: keys →
      front.countP (·.1 = .punct .closeCurly) ≤ front.countP (·.1 = .punct .openCurly)) ∧
      keys.countP (·.1 = .punct .closeCurly) = keys.countP (·.1 = .punct .openCurly) := by
  constructor
  · rintro front ⟨back, rfl⟩
    unfold Balanced depthAfter? at balanced
    rw [List.foldlM_append] at balanced
    obtain ⟨left, counted, _⟩ := Option.bind_eq_some_iff.mp balanced
    have total := countP_of_depthAfter? counted
    omega
  · exact (countP_of_depthAfter? balanced).symm

end Braces

/-- The tokens of an accepted source are ranges of it that leave only white space out. -/
theorem tokenized_of_scan {bytes : List UInt8} {tokens : List Token}
    (accepted : scan bytes = .ok tokens) : Tokenized bytes tokens := by
  obtain ⟨laid, balanced, paired⟩ := laid_of_scan accepted
  have reached : Position.start = Position.start.advance [] := rfl
  have stands : ∀ token ∈ tokens, token.StandsIn bytes :=
    fun token member => (laid.stands reached token member).1
  obtain ⟨never, equal⟩ := balanced.countP
  rw [List.countP_map, List.countP_map] at equal
  exact {
    stands := stands
    apart := laid.apart reached
    blank := by
      intro offset byte there
      have covered := laid.blank there
      rw [show Position.start.offset + offset = offset from Nat.zero_add offset] at covered
      exact covered
    records := readRecords?_records stands
    braces := by
      rintro front ⟨back, rfl⟩
      have counted := never (front.map Token.key)
        (by rw [List.map_append]; exact List.prefix_append _ _)
      rw [List.countP_map, List.countP_map] at counted
      exact counted
    balanced := equal
    paired := paired
    fits := by
      intro short token member
      have here := stands token member
      have first := here.firstLine.fits
        (Nat.le_trans (Nat.le_of_lt here.nonempty) here.inside) short
      have last := here.lastLine.fits here.inside short
      exact ⟨first.1, first.2, last.1, last.2⟩ }

/-- A call in braces with a string on the next line and a comment behind it. -/
theorem tokenized_of_scan_call :
    ∃ tokens, scan (Utf8.encode "\x7b $a::b(\n\"c\"); \x7d // d") = .ok tokens ∧
      Tokenized (Utf8.encode "\x7b $a::b(\n\"c\"); \x7d // d") tokens := by
  have some : (scan (Utf8.encode "\x7b $a::b(\n\"c\"); \x7d // d")).toOption.isSome = true := by
    decide +kernel
  cases accepted : scan (Utf8.encode "\x7b $a::b(\n\"c\"); \x7d // d") with
  | error fault =>
      rw [accepted] at some
      contradiction
  | ok tokens => exact ⟨tokens, rfl, tokenized_of_scan accepted⟩

end Token

end ScriptConsole
