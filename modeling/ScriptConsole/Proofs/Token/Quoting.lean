import ScriptConsole.Proofs.Text.Lossy
import ScriptConsole.Proofs.Token.Ranges
import ScriptConsole.Proofs.Token.Spelling

/-! # Strings between quotes

Every text can be written between quotes, and it is read back. The scanner looks for the closing
quote byte by byte, and escapes are resolved later, character by character. Both see the same
escapes in every string (`ScriptConsole.Token.SameEscapes`).
-/

namespace ScriptConsole.Token

section Definitions

/-- Kinds of strings, their quotes and the constants that they stand for. -/
inductive Quotes : TokenKind → Char → (Symbol → Literal) → Prop
  | string : Quotes .string '"' .text
  | tagged : Quotes .tagged '\'' .tagged

/-- How a character is written between quotes. -/
def spell (quote c : Char) : List Char :=
  if c = '\n' then ['\\', 'n']
  else if c = '\t' then ['\\', 't']
  else if c = '\r' then ['\\', 'r']
  else if c = '\\' ∨ c = quote then ['\\', c]
  else [c]

/-- Characters in front of a backslash are resolved as a whole: the backslash opens an escape. -/
def ResolvesPast (text : List Char) : Prop :=
  ∀ rest, unescape (text ++ '\\' :: rest) = unescape text ++ unescape ('\\' :: rest)

/-- The scanner and the resolver see the same escapes between two quotes. -/
structure SameEscapes (quote : UInt8) (inner : List UInt8) : Prop where
  /-- A backslash among the bytes is one among the characters. -/
  decoded : ∀ before after, inner = before ++ '\\'.toUInt8 :: after →
    Utf8.decodeLossy inner = Utf8.decodeLossy before ++ '\\' :: Utf8.decodeLossy after
  /-- A backslash among the characters is one among the bytes. -/
  encoded : ∀ front back, Utf8.decodeLossy inner = front ++ '\\' :: back →
    ∃ before after, inner = before ++ '\\'.toUInt8 :: after ∧ Utf8.decodeLossy before = front ∧
      Utf8.decodeLossy after = back
  /-- It opens an escape for both or for neither. -/
  opens : ∀ before after, inner = before ++ '\\'.toUInt8 :: after →
    (ScansPast quote before ↔ ResolvesPast (Utf8.decodeLossy before))
  /-- The last one opens none. -/
  closed : ∀ before, inner = before ++ ['\\'.toUInt8] →
    ¬ ScansPast quote before ∧ ¬ ResolvesPast (Utf8.decodeLossy before)

/-- Whether an escape is open behind a text, given whether one is open in front of it. -/
def leavesOpen {α : Type} [DecidableEq α] (escape : α) (isOpen : Bool) (text : List α) : Bool :=
  text.foldl (fun isOpen element => !isOpen && element = escape) isOpen

end Definitions

section Opening

variable {α : Type} [DecidableEq α] {escape : α} {isOpen : Bool}

theorem leavesOpen_append (first second : List α) :
    leavesOpen escape isOpen (first ++ second) =
      leavesOpen escape (leavesOpen escape isOpen first) second :=
  List.foldl_append

theorem leavesOpen_cons {element : α} (other : element ≠ escape) (text : List α) :
    leavesOpen escape isOpen (element :: text) = leavesOpen escape false text := by
  have next : leavesOpen escape isOpen (element :: text) =
      leavesOpen escape (!isOpen && element = escape) text := rfl
  rw [next, decide_eq_false other, Bool.and_false]

theorem leavesOpen_escaped (element : α) (text : List α) :
    leavesOpen escape false (escape :: element :: text) = leavesOpen escape false text := by
  have next : leavesOpen escape false (escape :: element :: text) =
      leavesOpen escape (!(!false && escape = escape) && element = escape) text := rfl
  rw [next, decide_eq_true rfl, Bool.not_false, Bool.true_and, Bool.not_true, Bool.false_and]

/-- What has no escape in it leaves none open, unless it is empty. -/
theorem leavesOpen_of_not_mem {text : List α} (without : escape ∉ text) :
    leavesOpen escape isOpen text = (isOpen && text.isEmpty) := by
  induction text generalizing isOpen with
  | nil => rw [List.isEmpty_nil, Bool.and_true]; rfl
  | cons element text ih =>
      obtain ⟨other, without⟩ := List.ne_and_not_mem_of_not_mem_cons without
      rw [leavesOpen_cons other.symm, ih without, Bool.false_and, List.isEmpty_cons, Bool.and_false]

/-- An open escape is the last of the text. -/
theorem exists_of_leavesOpen {text : List α} (open_ : leavesOpen escape false text = true) :
    ∃ front, text = front ++ [escape] ∧ leavesOpen escape false front = false := by
  rcases List.eq_nil_or_concat text with rfl | ⟨front, element, rfl⟩
  · contradiction
  · rw [List.concat_eq_append] at open_ ⊢
    rw [leavesOpen_append] at open_
    have last : (!leavesOpen escape false front && decide (element = escape)) = true := open_
    rw [Bool.and_eq_true, Bool.not_eq_true', decide_eq_true_eq] at last
    exact ⟨front, by rw [last.2], last.1⟩

/-- What holds of texts without escapes, and of texts whose rest behind the first escape has it,
holds of all. -/
theorem escape_induction {motive : List α → Prop}
    (plain : ∀ text, escape ∉ text → motive text)
    (escaped : ∀ front back, escape ∉ front → motive back → motive (front ++ escape :: back))
    (text : List α) : motive text := by
  induction length : text.length using Nat.strongRecOn generalizing text with
  | _ _ ih =>
      by_cases member : escape ∈ text
      · obtain ⟨front, back, rfl, before⟩ := List.eq_append_cons_of_mem member
        refine escaped front back before (ih _ ?_ back rfl)
        rw [← length, List.length_append, List.length_cons]
        omega
      · exact plain text member

end Opening

section Characters

theorem not_mem_decodeLossy {bytes : List UInt8} (without : '\\'.toUInt8 ∉ bytes) :
    '\\' ∉ Utf8.decodeLossy bytes :=
  fun member => without (Utf8.mem_of_mem_decodeLossy (by decide) member)

theorem decodeLossy_backslash (before after : List UInt8) :
    Utf8.decodeLossy (before ++ '\\'.toUInt8 :: after) =
      Utf8.decodeLossy before ++ '\\' :: Utf8.decodeLossy after :=
  Utf8.decodeLossy_append_ascii (by decide) before after

/-- The characters leave an escape open just as their bytes do. -/
theorem leavesOpen_decodeLossy (bytes : List UInt8) (isOpen : Bool) :
    leavesOpen '\\' isOpen (Utf8.decodeLossy bytes) = leavesOpen '\\'.toUInt8 isOpen bytes := by
  have plain {bytes : List UInt8} (without : '\\'.toUInt8 ∉ bytes) (isOpen : Bool) :
      leavesOpen '\\' isOpen (Utf8.decodeLossy bytes) = leavesOpen '\\'.toUInt8 isOpen bytes := by
    have nothing : (Utf8.decodeLossy bytes).isEmpty = bytes.isEmpty := by
      rw [Bool.eq_iff_iff, List.isEmpty_iff, List.isEmpty_iff]
      constructor
      · exact fun none => Utf8.eq_nil_of_decodeEach (List.map_eq_nil_iff.mp none)
      · rintro rfl
        rfl
    rw [leavesOpen_of_not_mem without, leavesOpen_of_not_mem (not_mem_decodeLossy without), nothing]
  induction bytes using @escape_induction _ _ '\\'.toUInt8 generalizing isOpen with
  | plain bytes without => exact plain without isOpen
  | escaped front back without ih =>
      rw [decodeLossy_backslash, leavesOpen_append, leavesOpen_append, plain without]
      exact ih _

/-- A backslash among the characters of a text is one among its bytes, which are cut there into the
bytes of both sides. -/
theorem exists_backslash {bytes : List UInt8} {front back : List Char}
    (split : Utf8.decodeLossy bytes = front ++ '\\' :: back) :
    ∃ before after, bytes = before ++ '\\'.toUInt8 :: after ∧ Utf8.decodeLossy before = front ∧
      Utf8.decodeLossy after = back := by
  induction bytes using @escape_induction _ _ '\\'.toUInt8 generalizing front with
  | plain bytes without =>
      have member : '\\' ∈ Utf8.decodeLossy bytes := by
        rw [split]
        exact List.mem_append_right _ List.mem_cons_self
      exact absurd member (not_mem_decodeLossy without)
  | escaped first rest without ih =>
      rw [decodeLossy_backslash, List.append_eq_append_iff] at split
      rcases split with ⟨between, rfl, same⟩ | ⟨between, same, later⟩
      · cases between with
        | nil => exact ⟨first, rest, rfl, (List.append_nil _).symm, (List.cons.inj same).2⟩
        | cons c between =>
            obtain ⟨rfl, later⟩ := List.cons.inj same
            obtain ⟨before, after, rfl, rfl, rfl⟩ := ih later
            refine ⟨first ++ '\\'.toUInt8 :: before, after, ?_, decodeLossy_backslash _ _, rfl⟩
            rw [List.append_assoc, List.cons_append]
      · cases between with
        | nil =>
            rw [List.append_nil] at same
            exact ⟨first, rest, rfl, same, (List.cons.inj later).2.symm⟩
        | cons c between =>
            obtain ⟨rfl, _⟩ := List.cons.inj later
            have member : '\\' ∈ Utf8.decodeLossy first := by
              rw [same]
              exact List.mem_append_right _ List.mem_cons_self
            exact absurd member (not_mem_decodeLossy without)

end Characters

section Resolving

variable {first second : Char} {rest : List Char}

theorem unescape_plain (plain : first ≠ '\\') :
    unescape (first :: rest) = first :: unescape rest := by
  rw [unescape.eq_def]
  simp only [plain, ne_eq, not_false_eq_true, ↓reduceIte]

theorem unescape_hex_none (none : hexDigitChar? first = none) :
    unescape ('\\' :: 'x' :: first :: rest) = 'x' :: unescape (first :: rest) := by
  rw [unescape.eq_def]
  simp only [none, ne_eq, not_true_eq_false, ↓reduceIte]

theorem unescape_hex_one {high : Nat} (digit : hexDigitChar? first = some high)
    (none : hexDigitChar? second = none) :
    unescape ('\\' :: 'x' :: first :: second :: rest) =
      Char.ofNat high :: unescape (second :: rest) := by
  rw [unescape.eq_def]
  simp only [digit, none, ne_eq, not_true_eq_false, ↓reduceIte]

theorem unescape_hex_two {high low : Nat} (digit : hexDigitChar? first = some high)
    (last : hexDigitChar? second = some low) :
    unescape ('\\' :: 'x' :: first :: second :: rest) =
      Char.ofNat (high * 16 + low) :: unescape rest := by
  rw [unescape.eq_def]
  simp only [digit, last, ne_eq, not_true_eq_false, ↓reduceIte]

theorem ne_backslash_of_hexDigit {digit : Nat} (hex : hexDigitChar? first = some digit) :
    first ≠ '\\' := by
  rintro rfl
  exact nomatch hex

/-- Characters that leave no escape open are resolved as a whole in front of a backslash. -/
theorem resolvesPast_of_leavesOpen {text : List Char}
    (closed : leavesOpen '\\' false text = false) : ResolvesPast text := by
  intro rest
  have noDigit : hexDigitChar? '\\' = none := rfl
  fun_induction unescape text with
  | case1 => rfl
  | case2 c text plain ih =>
      rw [leavesOpen_cons plain] at closed
      rw [List.cons_append, unescape_plain plain, ih closed, List.cons_append]
  | case3 c escape =>
      rw [Decidable.of_not_not escape] at closed
      contradiction
  | case4 c escape text ih =>
      obtain rfl := Decidable.of_not_not escape
      rw [leavesOpen_escaped] at closed
      exact congrArg (List.cons '\n') (ih closed)
  | case5 c escape text ih =>
      obtain rfl := Decidable.of_not_not escape
      rw [leavesOpen_escaped] at closed
      exact congrArg (List.cons '\t') (ih closed)
  | case6 c escape text ih =>
      obtain rfl := Decidable.of_not_not escape
      rw [leavesOpen_escaped] at closed
      exact congrArg (List.cons '\r') (ih closed)
  | case7 c escape =>
      obtain rfl := Decidable.of_not_not escape
      exact unescape_hex_none noDigit
  | case8 c escape first text none ih =>
      obtain rfl := Decidable.of_not_not escape
      rw [leavesOpen_escaped] at closed
      exact (unescape_hex_none none).trans (congrArg (List.cons 'x') (ih closed))
  | case9 c escape first high digit =>
      obtain rfl := Decidable.of_not_not escape
      exact unescape_hex_one digit noDigit
  | case10 c escape first high digit second text none ih =>
      obtain rfl := Decidable.of_not_not escape
      rw [leavesOpen_escaped, leavesOpen_cons (ne_backslash_of_hexDigit digit)] at closed
      exact (unescape_hex_one digit none).trans (congrArg (List.cons _) (ih closed))
  | case11 c escape first high digit second text low last ih =>
      obtain rfl := Decidable.of_not_not escape
      rw [leavesOpen_escaped, leavesOpen_cons (ne_backslash_of_hexDigit digit),
        leavesOpen_cons (ne_backslash_of_hexDigit last)] at closed
      exact (unescape_hex_two digit last).trans (congrArg (List.cons _) (ih closed))
  | case12 c escape first text notN notT notR notX ih =>
      obtain rfl := Decidable.of_not_not escape
      rw [leavesOpen_escaped] at closed
      have here (more : List Char) : unescape ('\\' :: first :: more) = first :: unescape more := by
        rw [unescape.eq_def]
        simp only [ne_eq, not_true_eq_false, ↓reduceIte]
      exact (here _).trans (congrArg (List.cons first) (ih closed))

/-- A backslash opens an escape for the resolver unless an escape is open in front of it. -/
theorem resolvesPast_iff {text : List Char} :
    ResolvesPast text ↔ leavesOpen '\\' false text = false := by
  constructor
  · intro passes
    rw [← Bool.not_eq_true]
    intro open_
    obtain ⟨front, rfl, closed⟩ := exists_of_leavesOpen open_
    -- With nothing behind it, the last backslash would stand for itself in front of another.
    have alone := resolvesPast_of_leavesOpen closed
    have whole := passes []
    rw [List.append_assoc, List.singleton_append, alone, alone] at whole
    have longer := congrArg List.length whole
    simp only [List.length_append] at longer
    have one : (unescape ['\\']).length = 1 := rfl
    have two : (unescape ['\\', '\\']).length = 1 := rfl
    omega
  · exact resolvesPast_of_leavesOpen

end Resolving

section Scanning

variable {quote : UInt8} {before after : List UInt8}

theorem Inside.leavesOpen_eq {bytes : List UInt8} (inside : Inside quote bytes) :
    leavesOpen '\\'.toUInt8 false bytes = false := by
  induction inside with
  | nil => rfl
  | plain _ notEscape _ _ ih => rw [leavesOpen_cons notEscape, ih]
  | escaped _ _ ih => rw [leavesOpen_escaped, ih]

/-- What is in front of a place where no escape is open is the inside of a string, too. -/
theorem Inside.front {bytes : List UInt8} (inside : Inside quote bytes)
    (split : bytes = before ++ after) (closed : leavesOpen '\\'.toUInt8 false before = false) :
    Inside quote before := by
  induction inside generalizing before with
  | nil =>
      rw [(List.append_eq_nil_iff.mp split.symm).1]
      exact .nil
  | plain notNewline notEscape notQuote next ih =>
      cases before with
      | nil => exact .nil
      | cons byte before =>
          obtain ⟨rfl, later⟩ := List.cons.inj split
          rw [leavesOpen_cons notEscape] at closed
          exact .plain notNewline notEscape notQuote (ih later closed)
  | escaped notNewline next ih =>
      match before with
      | [] => exact .nil
      | [byte] =>
          obtain ⟨rfl, -⟩ := List.cons.inj split
          contradiction
      | byte :: second :: before =>
          obtain ⟨rfl, later⟩ := List.cons.inj split
          obtain ⟨rfl, last⟩ := List.cons.inj later
          rw [leavesOpen_escaped] at closed
          exact .escaped notNewline (ih last closed)

/-- A backslash opens an escape for the scanner unless an escape is open in front of it. -/
theorem scansPast_iff (notNewline : quote ≠ '\n'.toUInt8) (notEscape : quote ≠ '\\'.toUInt8)
    (inside : Inside quote (before ++ after)) :
    ScansPast quote before ↔ leavesOpen '\\'.toUInt8 false before = false := by
  constructor
  · intro passes
    rw [← Bool.not_eq_true]
    intro open_
    obtain ⟨front, rfl, closed⟩ := exists_of_leavesOpen open_
    -- The quote behind the last backslash would end the string, but it is escaped.
    have goesOn := (inside.front (List.append_assoc ..) closed).scansPast
    have ends := passes 0 [quote]
    rw [List.append_assoc, List.singleton_append, goesOn, stringLength?_backslash notNewline,
      stringLength?_quote notNewline notEscape] at ends
    contradiction
  · exact fun closed => (inside.front rfl closed).scansPast

/-- Between quotes the scanner and the resolver see the same escapes, as no byte of a longer
character is a backslash or a quote. -/
theorem Inside.sameEscapes {inner : List UInt8} (inside : Inside quote inner)
    (notNewline : quote ≠ '\n'.toUInt8) (notEscape : quote ≠ '\\'.toUInt8) :
    SameEscapes quote inner where
  decoded before after split := by
    rw [split, decodeLossy_backslash]
  encoded front back split := exists_backslash split
  opens before after split := by
    rw [scansPast_iff notNewline notEscape (split ▸ inside), resolvesPast_iff,
      leavesOpen_decodeLossy]
  closed before split := by
    rw [scansPast_iff notNewline notEscape (split ▸ inside), resolvesPast_iff,
      leavesOpen_decodeLossy, and_self]
    intro closed
    have whole := inside.leavesOpen_eq
    rw [split, leavesOpen_append, closed] at whole
    contradiction

end Scanning

section Writing

variable {kind : TokenKind} {quote : Char} {build : Symbol → Literal}

theorem Quotes.isQuote (quotes : Quotes kind quote build) : IsQuote quote := by
  cases quotes with
  | string => exact .inl rfl
  | tagged => exact .inr rfl

theorem Quotes.opens (quotes : Quotes kind quote build) (rest : List UInt8) :
    piece quote.toUInt8 rest = stringPiece kind quote.toUInt8 rest := by
  cases quotes with
  | string => exact piece_string rest
  | tagged => exact piece_tagged rest

/-- What a character is spelled as between quotes is resolved to the character, and the scanner goes
past it. -/
theorem renders_spell (isQuote : IsQuote quote) (c : Char) : Renders quote c (spell quote c) := by
  unfold spell
  by_cases newline : c = '\n'
  · rw [if_pos newline, newline]
    exact .escaped (by decide) (by decide) (by decide) fun _ => rfl
  rw [if_neg newline]
  by_cases tab : c = '\t'
  · rw [if_pos tab, tab]
    exact .escaped (by decide) (by decide) (by decide) fun _ => rfl
  rw [if_neg tab]
  by_cases return_ : c = '\r'
  · rw [if_pos return_, return_]
    exact .escaped (by decide) (by decide) (by decide) fun _ => rfl
  rw [if_neg return_]
  by_cases quoting : c = '\\' ∨ c = quote
  · rw [if_pos quoting]
    rcases quoting with rfl | rfl
    · exact .escaped (by decide) (by decide) (by decide) fun _ => rfl
    · rcases isQuote with rfl | rfl
      · exact .escaped (by decide) (by decide) (by decide) fun _ => rfl
      · exact .escaped (by decide) (by decide) (by decide) fun _ => rfl
  · rw [if_neg quoting]
    exact .plain newline return_ (fun same => quoting (.inl same)) fun same => quoting (.inr same)

/-- A string that is next is passed, and its text is a constant. -/
theorem string_apply (quotes : Quotes kind quote build) (span : Span) (text : List UInt8)
    (state : ParseState) (next : state.tokens = [⟨kind, span, text⟩]) :
    Parse.string state = .ok (build (state.symbols.constant (stringValue text)), span)
      { state with tokens := [], passed := span.last } := by
  cases state
  subst next
  cases quotes with
  | string => rfl
  | tagged => rfl

/-- A string that was scanned is what stands between its two quotes. -/
theorem Quotes.exists_inside (quotes : Quotes kind quote build) {first : UInt8}
    {body rest : List UInt8}
    (taken : piece first (body ++ rest) = .ok (.token kind, body.length + 1)) :
    ∃ inner, first :: body = quote.toUInt8 :: (inner ++ [quote.toUInt8]) ∧
      Inside quote.toUInt8 inner := by
  have start : first = quote.toUInt8 := by
    have spells := (spells_of_piece taken).1
    cases quotes with
    | string =>
        obtain ⟨inner, same⟩ := spells
        exact (List.cons.inj same).1
    | tagged =>
        obtain ⟨inner, same⟩ := spells
        exact (List.cons.inj same).1
  rw [start] at taken ⊢
  exact (quoted_of_piece quotes.opens taken).2

/-- Between its quotes every text is one string, and it is what the string stands for. The scanner
and the resolver see the same escapes in every string of an accepted source. -/
theorem strings_agree :
    (∀ {kind quote build}, Quotes kind quote build → ∀ text : String,
      let source := enclosed quote (spell quote) text
      scan source = .ok [lone kind source] ∧
        ∀ state : ParseState, state.tokens = [lone kind source] →
          ∃ constant span final, Parse.string state = .ok (build constant, span) final ∧
            constant.text = text ∧ final.tokens = []) ∧
    ∀ {bytes tokens}, scan bytes = .ok tokens → ∀ token ∈ tokens, ∀ {quote build},
      Quotes token.kind quote build →
        ∃ inner, token.text = quote.toUInt8 :: (inner ++ [quote.toUInt8]) ∧
          stringValue token.text = String.ofList (unescape (Utf8.decodeLossy inner)) ∧
          SameEscapes quote.toUInt8 inner := by
  constructor
  · intro kind quote build quotes text
    have isQuote := quotes.isQuote
    have written : Written (kind, enclosed quote (spell quote) text) := by
      apply written_enclosed isQuote (renders_spell isQuote) _ quotes.opens
      · cases quotes <;> exact fun _ => rfl
      · cases quotes <;> rfl
    refine ⟨written.scan_eq, fun state next => ?_⟩
    refine ⟨_, _, _, string_apply quotes _ _ state next, ?_, rfl⟩
    exact stringValue_enclosed isQuote (renders_spell isQuote) text
  · intro bytes tokens accepted token member quote build quotes
    obtain ⟨first, body, rest, spelled, taken⟩ := (laid_of_scan accepted).1.taken member
    obtain ⟨inner, quoted, inside⟩ := quotes.exists_inside taken
    have isQuote := quotes.isQuote
    refine ⟨inner, spelled.trans quoted, ?_,
      inside.sameEscapes isQuote.ne_newline isQuote.ne_escape⟩
    unfold stringValue
    rw [spelled, quoted, List.drop_one, List.tail_cons, List.dropLast_concat]

/-- A text with a quote and a backslash at its end, and a source with two strings of both kinds. -/
theorem strings_agree_backslashes :
    scan (enclosed '"' (spell '"') "say \"\\") =
        .ok [lone .string (enclosed '"' (spell '"') "say \"\\")] ∧
      ∃ tokens, scan (Utf8.encode "f('\\\\\\x41', \"it's \\é\")") = .ok tokens ∧
        ∃ token ∈ tokens, ∃ inner, token.kind = .tagged ∧
          token.text = '\''.toUInt8 :: (inner ++ ['\''.toUInt8]) ∧
          SameEscapes '\''.toUInt8 inner := by
  refine ⟨(strings_agree.1 .string _).1, ?_⟩
  have some : (scan (Utf8.encode "f('\\\\\\x41', \"it's \\é\")")).toOption.any
      (fun tokens => tokens.any (·.kind = .tagged)) = true := by
    decide +kernel
  cases accepted : scan (Utf8.encode "f('\\\\\\x41', \"it's \\é\")") with
  | error fault =>
      rw [accepted] at some
      contradiction
  | ok tokens =>
      rw [accepted] at some
      obtain ⟨token, member, kind⟩ := List.any_eq_true.mp some
      have tagged : token.kind = .tagged := of_decide_eq_true kind
      have quotes : Quotes token.kind '\'' .tagged := by
        rw [tagged]
        exact .tagged
      obtain ⟨inner, quoted, -, same⟩ := strings_agree.2 accepted token member quotes
      exact ⟨tokens, rfl, token, member, inner, tagged, quoted, same⟩

end Writing

end ScriptConsole.Token
