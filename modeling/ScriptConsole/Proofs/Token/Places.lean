import ScriptConsole.Proofs.Source.Reports

/-! # Places that the scanner names

The scanner complains about places in the source (`ScriptConsole.Token.scan_error_placed`), and the
tokens that it takes start and end in places of it (`ScriptConsole.Token.scan_ok_placed`). None of
them is ever between a carriage return and its newline.
-/

namespace ScriptConsole

namespace Position

variable {bytes before after : List UInt8} {byte : UInt8}

/-- A place in front of a byte that is no newline. -/
theorem placedIn_before (split : bytes = before ++ byte :: after) (other : byte ≠ '\n'.toUInt8) :
    (start.advance before).PlacedIn bytes :=
  ⟨before, byte :: after, split, rfl, fun _ => ⟨byte, rfl, other⟩⟩

/-- A place behind bytes that do not end in a carriage return. -/
theorem placedIn_behind (split : bytes = before ++ after)
    (other : before.getLast? ≠ some '\r'.toUInt8) : (start.advance before).PlacedIn bytes :=
  ⟨before, after, split, rfl, fun returns => absurd returns other⟩

end Position

namespace Token

section Errors

theorem not_newline_of_ink {byte : UInt8} (ink : isSpace byte = false) : byte ≠ '\n'.toUInt8 := by
  rintro rfl
  contradiction

/-- A number is refused for what follows it at a byte that is no white space. -/
theorem unlessNamed_error {bytes : List UInt8} {length ahead : Nat} {complaint : Complaint}
    (failed : unlessNamed bytes length = .error (ahead, complaint)) :
    ∃ byte, bytes[ahead]? = some byte ∧ isSpace byte = false := by
  unfold unlessNamed at failed
  split at failed
  next named =>
    obtain ⟨rfl, -⟩ := Prod.mk.inj (Except.error.inj failed)
    cases there : bytes[length]? with
    | none =>
        rw [there] at named
        contradiction
    | some byte =>
        rw [there] at named
        exact ⟨byte, rfl, inky_isNameStart.isSpace_eq_false named⟩
  next => contradiction

variable {first : UInt8} {rest : List UInt8} {ahead : Nat} {complaint : Complaint}

theorem stringPiece_error {kind : TokenKind} {quote : UInt8}
    (failed : stringPiece kind quote rest = .error (ahead, complaint)) : ahead = 0 := by
  unfold stringPiece at failed
  split at failed
  next => contradiction
  next => exact (Prod.mk.inj (Except.error.inj failed)).1.symm

/-- A number is refused at its first byte or at a byte of it that is no white space. -/
theorem numberLength_error (failed : numberLength (first :: rest) = .error (ahead, complaint)) :
    ahead = 0 ∨ ∃ byte, (first :: rest)[ahead]? = some byte ∧ isSpace byte = false := by
  by_cases hex : IsHexMark (first :: rest)
  · obtain ⟨x, digits, same, mark⟩ := hex
    rw [same] at failed ⊢
    rw [numberLength_hex mark] at failed
    split at failed
    · exact .inr (unlessNamed_error failed)
    · exact .inl (Prod.mk.inj (Except.error.inj failed)).1.symm
  · rw [numberLength_decimal hex] at failed
    exact .inr (unlessNamed_error failed)

/-- Where nothing can be read, the complaint is about a byte that is no white space. -/
theorem piece_error (failed : piece first rest = .error (ahead, complaint)) :
    ∃ byte, (first :: rest)[ahead]? = some byte ∧ isSpace byte = false := by
  have ink : isSpace first = false := by
    rw [← Bool.not_eq_true]
    intro blank
    rw [piece_space blank] at failed
    contradiction
  have here (zero : ahead = 0) :
      ∃ byte, (first :: rest)[ahead]? = some byte ∧ isSpace byte = false :=
    ⟨first, by rw [zero]; rfl, ink⟩
  rcases piece_cases first rest with rfl | rfl | start | start | ⟨rfl, named⟩ | ⟨rfl, named⟩ |
    ⟨more, rfl, rfl⟩ | ⟨more, rfl, rfl⟩ | blank | plain
  · exact here (stringPiece_error failed)
  · exact here (stringPiece_error failed)
  · rw [piece_identifier start] at failed
    contradiction
  · rw [piece_number start] at failed
    cases counted : numberLength (first :: rest) with
    | ok length =>
        rw [counted] at failed
        contradiction
    | error fault =>
        rw [counted] at failed
        obtain rfl : fault = (ahead, complaint) := Except.error.inj failed
        exact (numberLength_error counted).elim here id
  · rw [piece_local named] at failed
    contradiction
  · rw [piece_global named] at failed
    contradiction
  · rw [piece_line] at failed
    contradiction
  · rw [piece_block] at failed
    split at failed
    · contradiction
    · exact here (Prod.mk.inj (Except.error.inj failed)).1.symm
  · rw [blank] at ink
    contradiction
  · rw [piece_plain plain] at failed
    split at failed
    · contradiction
    · exact here (Prod.mk.inj (Except.error.inj failed)).1.symm

end Errors

section Ends

/-- A comment in delimiters ends in a slash. -/
theorem exists_commentEnd {length total : Nat} {afterStar : Bool} {bytes : List UInt8}
    (closed : commentLength? length afterStar bytes = some total) :
    ∃ text after, bytes = text ++ '/'.toUInt8 :: after ∧ total = length + (text.length + 1) := by
  induction bytes generalizing length afterStar with
  | nil => contradiction
  | cons byte bytes ih =>
      rw [commentLength?] at closed
      split at closed
      next slash =>
        rw [Bool.and_eq_true, decide_eq_true_eq] at slash
        obtain ⟨-, rfl⟩ := slash
        exact ⟨[], bytes, rfl, (Option.some.inj closed).symm⟩
      next =>
        obtain ⟨text, after, rfl, counted⟩ := ih closed
        refine ⟨byte :: text, after, rfl, ?_⟩
        rw [List.length_cons]
        omega

variable {first : UInt8} {body rest : List UInt8} {kind : TokenKind}

theorem not_newline_of_piece {length : Nat} (taken : piece first rest = .ok (.token kind, length)) :
    first ≠ '\n'.toUInt8 := by
  rintro rfl
  rw [piece_space rfl] at taken
  exact nomatch (Prod.mk.inj (Except.ok.inj taken)).1

theorem solid_of_piece (taken : piece first (body ++ rest) = .ok (.token kind, body.length + 1))
    (proper : kind.isComment = false) : Solid kind (first :: body) := by
  generalize measured : body.length + 1 = length at taken
  cases starts_of_piece taken with
  | @solid _ other after split solid =>
      rw [(List.append_inj split (Nat.succ.inj measured)).1]
      exact solid
  | comment _ comment =>
      rw [comment] at proper
      contradiction

/-- A comment up to the end of its line does not take the carriage return with it. -/
theorem getLast?_lineComment
    (taken : piece first (body ++ rest) = .ok (.token .lineComment, body.length + 1)) :
    (first :: body).getLast? ≠ some '\r'.toUInt8 := by
  obtain ⟨more, same⟩ := (spells_of_piece taken).1
  obtain ⟨rfl, rfl⟩ := List.cons.inj same
  have whole : piece '/'.toUInt8 ('/'.toUInt8 :: (more ++ rest)) = _ := taken
  rw [piece_line] at whole
  have measured := (Prod.mk.inj (Except.ok.inj whole)).2
  let onLine (byte : UInt8) : Bool := byte ≠ '\n'.toUInt8 && byte ≠ '\r'.toUInt8
  have line : ('/'.toUInt8 :: '/'.toUInt8 :: (more ++ rest)).takeWhile onLine =
      '/'.toUInt8 :: '/'.toUInt8 :: more := by
    have starts : ('/'.toUInt8 :: '/'.toUInt8 :: (more ++ rest)).takeWhile onLine <+:
        '/'.toUInt8 :: '/'.toUInt8 :: more :=
      List.prefix_of_prefix_length_le (List.takeWhile_prefix onLine)
        (List.prefix_append ('/'.toUInt8 :: '/'.toUInt8 :: more) rest) (Nat.le_of_eq measured)
    exact starts.eq_of_length measured
  intro returns
  have inside := List.all_eq_true.mp List.all_takeWhile _ (line ▸ List.mem_of_getLast? returns)
  contradiction

/-- A comment in a block ends with a slash. -/
theorem getLast?_blockComment
    (taken : piece first (body ++ rest) = .ok (.token .blockComment, body.length + 1)) :
    (first :: body).getLast? ≠ some '\r'.toUInt8 := by
  obtain ⟨more, same⟩ := (spells_of_piece taken).1
  obtain ⟨rfl, rfl⟩ := List.cons.inj same
  have whole : piece '/'.toUInt8 ('*'.toUInt8 :: (more ++ rest)) = _ := taken
  rw [piece_block] at whole
  split at whole
  next total closed =>
    have measured := (Prod.mk.inj (Except.ok.inj whole)).2
    obtain ⟨text, after, split, counted⟩ := exists_commentEnd closed
    have long : more.length = (text ++ ['/'.toUInt8]).length := by
      have total : total = more.length + 2 := measured
      rw [List.length_append, List.length_singleton]
      omega
    have ends : more ++ rest = (text ++ ['/'.toUInt8]) ++ after := by
      rw [split, List.append_assoc, List.singleton_append]
    have last : '/'.toUInt8 :: '*'.toUInt8 :: more =
        ('/'.toUInt8 :: '*'.toUInt8 :: text) ++ ['/'.toUInt8] := by
      rw [(List.append_inj ends long).1, List.cons_append, List.cons_append]
    change ('/'.toUInt8 :: '*'.toUInt8 :: more).getLast? ≠ _
    rw [last, List.getLast?_concat]
    decide
  next => contradiction

/-- No token ends in a carriage return. -/
theorem getLast?_of_piece
    (taken : piece first (body ++ rest) = .ok (.token kind, body.length + 1)) :
    (first :: body).getLast? ≠ some '\r'.toUInt8 := by
  cases kind with
  | lineComment => exact getLast?_lineComment taken
  | blockComment => exact getLast?_blockComment taken
  | _ => exact (solid_of_piece taken rfl).last

end Ends

section Scanning

variable {source before bytes : List UInt8} {position : Position} {opened : List Position}
  {tokens : List Token}

/-- A span starts and ends in places of a source. -/
def PlacedIn (source : List UInt8) (token : Token) : Prop :=
  token.span.first.PlacedIn source ∧ token.span.last.PlacedIn source

/-- Tokens that are laid out start and end in places of the source. -/
theorem Laid.placed (laid : Laid position bytes tokens) (split : source = before ++ bytes)
    (reached : position = Position.start.advance before) :
    ∀ token ∈ tokens, token.PlacedIn source := by
  induction laid generalizing before with
  | nil => exact fun _ member => absurd member List.not_mem_nil
  | @space position first rest tokens blank next ih =>
      refine @ih (before ++ [first]) ?_ ?_
      · rw [split, List.append_assoc, List.singleton_append]
      · rw [reached, Position.advance_append]
        rfl
  | @token position kind first body rest tokens taken next ih =>
      have behind : source = (before ++ first :: body) ++ rest := by
        rw [split, List.append_assoc, List.cons_append]
      have ended : position.advance (first :: body) =
          Position.start.advance (before ++ first :: body) := by
        rw [reached, Position.advance_append]
      refine List.forall_mem_cons.mpr ⟨⟨?_, ?_⟩, @ih (before ++ first :: body) behind ended⟩
      · rw [reached]
        exact Position.placedIn_before split (not_newline_of_piece taken)
      · dsimp only
        rw [ended]
        refine Position.placedIn_behind behind ?_
        have last := getLast?_of_piece taken
        rw [List.getLast?_cons] at last
        rw [List.getLast?_append, List.getLast?_cons, Option.some_or]
        exact last

/-- A brace that a token opens is where the token starts. -/
theorem braces?_placed {still : List Position} {token : Token}
    (braced : braces? opened token = some still) (first : token.span.first.PlacedIn source)
    (placed : ∀ place ∈ opened, place.PlacedIn source) :
    ∀ place ∈ still, place.PlacedIn source := by
  unfold braces? at braced
  split at braced
  next =>
    obtain rfl := Option.some.inj braced
    exact List.forall_mem_cons.mpr ⟨first, placed⟩
  next =>
    split at braced
    next => contradiction
    next opened =>
      obtain rfl := Option.some.inj braced
      exact (List.forall_mem_cons.mp placed).2
  next =>
    obtain rfl := Option.some.inj braced
    exact placed

/-- Where the scanner fails is a place in the source, and so is where a brace was opened. -/
theorem scanFrom_placed {skip : Nat} (split : source = before ++ bytes)
    (reached : position = Position.start.advance before)
    (placed : ∀ place ∈ opened, place.PlacedIn source) :
    (∀ fault, scanFrom skip position opened tokens bytes = .error fault →
      fault.position.PlacedIn source) ∧
    ∀ left all, scanFrom skip position opened tokens bytes = .ok (left, all) →
      ∀ place ∈ left, place.PlacedIn source := by
  induction bytes generalizing skip position opened tokens before with
  | nil =>
      refine ⟨fun _ _ => by contradiction, fun left all scanned => ?_⟩
      obtain ⟨rfl, -⟩ := Prod.mk.inj (Except.ok.inj scanned)
      exact placed
  | cons first rest ih =>
      have next : source = (before ++ [first]) ++ rest := by
        rw [split, List.append_assoc, List.singleton_append]
      have step : position.step first = Position.start.advance (before ++ [first]) := by
        rw [reached, Position.advance_append]
        rfl
      rw [scanFrom.eq_def]
      dsimp only
      split
      next => exact ih next step placed
      next =>
        split
        next ahead complaint failed =>
          refine ⟨fun fault same => ?_, fun _ _ _ => by contradiction⟩
          obtain rfl := Except.error.inj same
          obtain ⟨byte, there, ink⟩ := piece_error failed
          obtain ⟨within, rfl⟩ := List.getElem?_eq_some_iff.mp there
          have there : source = (before ++ (first :: rest).take ahead) ++
              (first :: rest)[ahead] :: (first :: rest).drop (ahead + 1) := by
            rw [List.append_assoc, ← List.drop_eq_getElem_cons within, List.take_append_drop, split]
          dsimp only
          rw [reached, ← Position.advance_append]
          exact Position.placedIn_before there (not_newline_of_ink ink)
        next => exact ih next step placed
        next kind length taken =>
          have here : position.PlacedIn source := by
            rw [reached]
            exact Position.placedIn_before split (not_newline_of_piece taken)
          split
          next =>
            refine ⟨fun fault same => ?_, fun _ _ _ => by contradiction⟩
            obtain rfl := Except.error.inj same
            exact here
          next still braced => exact ih next step (braces?_placed braced here placed)

/-- A carriage return that no newline follows stands in the source. -/
theorem loneReturn?_placed {place : Position} (split : source = before ++ bytes)
    (reached : position = Position.start.advance before)
    (alone : loneReturn? position bytes = some place) : place.PlacedIn source := by
  induction bytes generalizing position before with
  | nil => contradiction
  | cons byte rest ih =>
      rw [loneReturn?] at alone
      split at alone
      next returns =>
        rw [Bool.and_eq_true, decide_eq_true_eq] at returns
        obtain rfl := Option.some.inj alone
        rw [reached]
        refine Position.placedIn_before split ?_
        rw [returns.1]
        decide
      next =>
        refine @ih (before ++ [byte]) (position.step byte) ?_ ?_ alone
        · rw [split, List.append_assoc, List.singleton_append]
        · rw [reached, Position.advance_append]
          rfl

/-- Where a source is refused by the scanner is a place in it. -/
theorem scan_error_placed {fault : Fault} (refused : scan source = .error fault) :
    fault.position.PlacedIn source := by
  have placed := @scanFrom_placed source [] source .start [] [] 0 rfl rfl
    (fun _ member => absurd member List.not_mem_nil)
  unfold scan at refused
  cases scanned : scanFrom 0 .start [] [] source with
  | error reason =>
      rw [scanned] at refused
      obtain rfl : reason = fault := Except.error.inj refused
      exact placed.1 reason scanned
  | ok result =>
      obtain ⟨left, all⟩ := result
      rw [scanned] at refused
      cases alone : loneReturn? .start source with
      | some place =>
          rw [alone] at refused
          obtain rfl : (⟨place, .loneReturn⟩ : Fault) = fault := Except.error.inj refused
          exact @loneReturn?_placed source [] source .start place rfl rfl alone
      | none =>
          rw [alone] at refused
          cases left with
          | nil => contradiction
          | cons place left =>
              obtain rfl : (⟨place, .unmatchedOpen⟩ : Fault) = fault := Except.error.inj refused
              exact placed.2 _ _ scanned place List.mem_cons_self

/-- The tokens of a source start and end in places of it. -/
theorem scan_ok_placed {tokens : List Token} (accepted : scan source = .ok tokens) :
    ∀ token ∈ tokens, token.PlacedIn source :=
  @Laid.placed source [] source .start tokens (laid_of_scan accepted).1 rfl rfl

end Scanning

end Token

end ScriptConsole
