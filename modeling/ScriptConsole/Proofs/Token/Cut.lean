import ScriptConsole.Proofs.Parse.Agree
import ScriptConsole.Proofs.Token.Solid

/-! # Sources cut into tokens

Bytes are cut into white space and tokens (`ScriptConsole.Token.Cut`). The scanner accepts
bytes that are cut if the braces among the tokens balance and every carriage return has its
newline, and it accepts no others.
-/

namespace ScriptConsole.Token

section Definitions

/-- Bytes fall into white space and tokens, comments among them, with these kinds and texts. -/
inductive Cut : List UInt8 → List (TokenKind × List UInt8) → Prop
  | nil : Cut [] []
  | space {first rest keys} (blank : isSpace first = true) (next : Cut rest keys) :
    Cut (first :: rest) keys
  | token {kind first body rest keys}
    (taken : piece first (body ++ rest) = .ok (.token kind, body.length + 1))
    (next : Cut rest keys) : Cut (first :: (body ++ rest)) ((kind, first :: body) :: keys)

/-- Bytes fall into white space and these tokens, comments among them, which stand where they
are recorded. The first byte is at the position. -/
inductive Laid : Position → List UInt8 → List Token → Prop
  | nil {position} : Laid position [] []
  | space {position first rest tokens} (blank : isSpace first = true)
    (next : Laid (position.step first) rest tokens) : Laid position (first :: rest) tokens
  | token {position kind first body rest tokens}
    (taken : piece first (body ++ rest) = .ok (.token kind, body.length + 1))
    (next : Laid (position.advance (first :: body)) rest tokens) :
    Laid position (first :: (body ++ rest))
      (⟨kind, ⟨position, position.advance (first :: body)⟩, first :: body⟩ :: tokens)

/-- How many braces are open after a token; `none` if it closes one that was never opened. -/
def depth? (depth : Nat) (kind : TokenKind) : Option Nat :=
  if kind = .punct .openCurly then some (depth + 1)
  else if kind = .punct .closeCurly then
    if depth = 0 then none else some (depth - 1)
  else some depth

/-- How many braces are open after tokens. -/
def depthAfter? (depth : Nat) (keys : List (TokenKind × List UInt8)) : Option Nat :=
  keys.foldlM (fun depth key => depth? depth key.1) depth

/-- Every brace that is opened is closed, and no other. -/
def Balanced (keys : List (TokenKind × List UInt8)) : Prop :=
  depthAfter? 0 keys = some 0

/-- A newline follows every carriage return. -/
def Paired (bytes : List UInt8) : Prop :=
  ∀ before after, bytes = before ++ '\r'.toUInt8 :: after → after.head? = some '\n'.toUInt8

end Definitions

section Returns

theorem Paired.append_right {before bytes : List UInt8} (paired : Paired (before ++ bytes)) :
    Paired bytes := by
  intro front after split
  exact paired (before ++ front) after (by rw [split, List.append_assoc])

theorem paired_nil : Paired [] := by
  intro before after split
  have nonempty : before ++ '\r'.toUInt8 :: after ≠ [] := List.append_ne_nil_of_right_ne_nil _ nofun
  exact absurd split.symm nonempty

/-- Whether returns are paired is seen at the first byte and from there on. -/
theorem paired_cons {first : UInt8} {rest : List UInt8} :
    Paired (first :: rest) ↔
      (first = '\r'.toUInt8 → rest.head? = some '\n'.toUInt8) ∧ Paired rest := by
  constructor
  · intro paired
    constructor
    · intro return_
      exact paired [] rest (by rw [return_, List.nil_append])
    · have whole : Paired ([first] ++ rest) := paired
      exact whole.append_right
  · intro ⟨ends, paired⟩ before after split
    cases before with
    | nil =>
        obtain ⟨return_, same⟩ := List.cons.inj split
        exact same ▸ ends return_
    | cons byte before => exact paired before after (List.cons.inj split).2

theorem paired_of_not_mem {text : List UInt8} (without : '\r'.toUInt8 ∉ text) : Paired text := by
  intro before after split
  have member : '\r'.toUInt8 ∈ text := by
    rw [split]
    exact List.mem_append_right before List.mem_cons_self
  exact absurd member without

/-- Two pieces with paired returns have paired returns together. -/
theorem Paired.append {front rest : List UInt8} (paired : Paired front) (after : Paired rest) :
    Paired (front ++ rest) := by
  induction front with
  | nil => exact after
  | cons byte front ih =>
      obtain ⟨ends, later⟩ := paired_cons.mp paired
      rw [List.cons_append, paired_cons]
      constructor
      · intro return_
        rw [List.head?_append, ends return_, Option.some_or]
      · exact ih later

theorem loneReturn?_eq_none {position : Position} {bytes : List UInt8} :
    loneReturn? position bytes = none ↔ Paired bytes := by
  induction bytes generalizing position with
  | nil => exact ⟨fun _ => paired_nil, fun _ => rfl⟩
  | cons byte rest ih =>
      rw [paired_cons, ← @ih (position.step byte), loneReturn?]
      by_cases return_ : byte = '\r'.toUInt8 <;>
        by_cases newline : rest.head? = some '\n'.toUInt8 <;> simp [return_, newline]

/-- A token that is alone on its line has no carriage return if each of them has its newline. -/
theorem Solid.not_mem_return {kind : TokenKind} {text after : List UInt8} (solid : Solid kind text)
    (paired : Paired (text ++ after)) : '\r'.toUInt8 ∉ text := by
  intro member
  obtain ⟨before, behind, rfl⟩ := List.append_of_mem member
  have newline := paired before (behind ++ after) (by rw [List.append_assoc, List.cons_append])
  cases behind with
  | nil =>
      have last := solid.last
      rw [List.getLast?_append, List.getLast?_singleton] at last
      exact last rfl
  | cons byte behind =>
      rw [List.cons_append, List.head?_cons] at newline
      apply solid.line
      rw [← Option.some.inj newline]
      exact List.mem_append_right _ (List.mem_cons_of_mem _ List.mem_cons_self)

end Returns

section Depths

/-- Braces are counted as they are opened and closed. -/
theorem braces?_length (opened : List Position) (token : Token) :
    (braces? opened token).map List.length = depth? opened.length token.kind := by
  unfold braces?
  split
  next open_ =>
    rw [open_]
    rfl
  next close =>
    rw [close]
    cases opened <;> rfl
  next notOpen notClose =>
    unfold depth?
    rw [if_neg notOpen, if_neg notClose]
    rfl

theorem depth?_comment {kind : TokenKind} (comment : kind.isComment = true) (depth : Nat) :
    depth? depth kind = some depth := by
  cases kind with
  | lineComment => rfl
  | blockComment => rfl
  | _ => contradiction

/-- Comments open and close nothing. -/
theorem depthAfter?_filter (depth : Nat) (keys : List (TokenKind × List UInt8)) :
    depthAfter? depth (keys.filter fun key => !key.1.isComment) = depthAfter? depth keys := by
  unfold depthAfter?
  induction keys generalizing depth with
  | nil => rfl
  | cons key keys ih =>
      rw [List.foldlM_cons]
      cases comment : key.1.isComment with
      | true =>
          rw [List.filter_cons_of_neg (by rw [comment]; decide), ih, depth?_comment comment]
          rfl
      | false =>
          rw [List.filter_cons_of_pos (by rw [comment]; decide), List.foldlM_cons]
          simp only [ih]

end Depths

section Scanning

variable {position : Position} {opened left : List Position} {tokens all : List Token}

/-- Without the positions, what is laid out is cut. -/
theorem Laid.cut {bytes : List UInt8} (laid : Laid position bytes tokens) :
    Cut bytes (tokens.map Token.key) := by
  induction laid with
  | nil => exact .nil
  | space blank next ih => exact .space blank ih
  | token taken next ih => exact .token taken ih

/-- A token that is laid out was taken where it stands. -/
theorem Laid.taken {bytes : List UInt8} {token : Token} (laid : Laid position bytes tokens)
    (member : token ∈ tokens) : ∃ first body rest, token.text = first :: body ∧
      piece first (body ++ rest) = .ok (.token token.kind, body.length + 1) := by
  induction laid with
  | nil => contradiction
  | space blank next ih => exact ih member
  | token taken next ih =>
      rcases List.mem_cons.mp member with rfl | later
      · exact ⟨_, _, _, rfl, taken⟩
      · exact ih later

/-- What the scanner takes after the first `skip` bytes is laid out behind them. -/
theorem laid_of_scanFrom {skip : Nat} {bytes : List UInt8}
    (scanned : scanFrom skip position opened tokens bytes = .ok (left, all)) :
    ∃ more, all = tokens.reverse ++ more ∧
      Laid (position.advance (bytes.take skip)) (bytes.drop skip) more ∧
      depthAfter? opened.length (more.map Token.key) = some left.length := by
  induction bytes generalizing skip position opened tokens with
  | nil =>
      obtain ⟨rfl, rfl⟩ := Prod.mk.inj (Except.ok.inj scanned)
      rw [List.drop_nil]
      exact ⟨[], (List.append_nil _).symm, .nil, rfl⟩
  | cons first rest ih =>
      unfold scanFrom at scanned
      dsimp only at scanned
      split at scanned
      next skip => exact ih scanned
      next =>
        split at scanned
        next => contradiction
        next length taken =>
          cases starts_of_piece taken with
          | space blank =>
              obtain ⟨more, split, laid, depth⟩ := ih scanned
              exact ⟨more, split, .space blank laid, depth⟩
        next kind length taken =>
          obtain ⟨body, after, rfl, rfl⟩ :
              ∃ body after, rest = body ++ after ∧ length = body.length + 1 := by
            cases starts_of_piece taken with
            | solid split _ => exact ⟨_, _, split, rfl⟩
            | comment split _ => exact ⟨_, _, split, rfl⟩
          split at scanned
          next => contradiction
          next still braced =>
            obtain ⟨more, split, laid, depth⟩ := ih scanned
            have text : (first :: (body ++ after)).take (body.length + 1) = first :: body := by
              rw [List.take_succ_cons, List.take_left]
            rw [Nat.add_sub_cancel, List.take_left, List.drop_left] at laid
            rw [List.reverse_cons, List.append_assoc, text] at split
            refine ⟨_, split, .token taken laid, ?_⟩
            have counted : depth? opened.length kind = some still.length :=
              (braces?_length opened _).symm.trans (congrArg (Option.map List.length) braced)
            unfold depthAfter?
            rw [List.singleton_append, List.map_cons, List.foldlM_cons]
            unfold Token.key at *
            dsimp only
            rw [counted]
            exact depth

/-- The scanner passes over what was already taken. -/
theorem scanFrom_skip (body rest : List UInt8) :
    scanFrom body.length position opened tokens (body ++ rest) =
      scanFrom 0 (position.advance body) opened tokens rest := by
  induction body generalizing position with
  | nil => rfl
  | cons byte body ih => exact ih

/-- The scanner takes the tokens of a cut whose braces close nothing that is not open. -/
theorem scanFrom_of_cut {bytes : List UInt8} {keys : List (TokenKind × List UInt8)}
    {depth : Nat} (cut : Cut bytes keys)
    (braced : depthAfter? opened.length keys = some depth) :
    ∃ left more, scanFrom 0 position opened tokens bytes = .ok (left, tokens.reverse ++ more) ∧
      more.map Token.key = keys ∧ left.length = depth := by
  induction cut generalizing position opened tokens with
  | nil => exact ⟨opened, [], by rw [List.append_nil]; rfl, rfl, Option.some.inj braced⟩
  | @space first rest keys blank next ih =>
      obtain ⟨left, more, scanned, same, measured⟩ := @ih (position.step first) _ tokens braced
      refine ⟨left, more, ?_, same, measured⟩
      rw [scanFrom.eq_def]
      simp only [piece_space blank]
      exact scanned
  | @token kind first body rest keys taken next ih =>
      have text : (first :: (body ++ rest)).take (body.length + 1) = first :: body := by
        rw [List.take_succ_cons, List.take_left]
      let token : Token := ⟨kind, ⟨position, position.advance (first :: body)⟩, first :: body⟩
      have counted : (braces? opened token).map List.length = depth? opened.length kind :=
        braces?_length opened token
      unfold depthAfter? at braced
      rw [List.foldlM_cons, ← counted] at braced
      cases still : braces? opened token with
      | none =>
          rw [still] at braced
          contradiction
      | some after =>
          rw [still] at braced
          obtain ⟨left, more, scanned, same, measured⟩ :=
            @ih ((position.step first).advance body) after (token :: tokens) braced
          refine ⟨left, token :: more, ?_, ?_, measured⟩
          · rw [scanFrom.eq_def]
            simp only [taken, text, still, token, Nat.add_sub_cancel, scanFrom_skip, scanned,
              List.reverse_cons, List.append_assoc, List.singleton_append]
          · rw [List.map_cons, same]
            rfl

end Scanning

section Acceptance

/-- What the scanner accepts is laid out in its tokens, whose braces balance. -/
theorem laid_of_scan {bytes : List UInt8} {tokens : List Token}
    (accepted : scan bytes = .ok tokens) :
    Laid .start bytes tokens ∧ Balanced (tokens.map Token.key) ∧ Paired bytes := by
  unfold scan at accepted
  cases scanned : scanFrom 0 .start [] [] bytes with
  | error fault =>
      rw [scanned] at accepted
      contradiction
  | ok result =>
      obtain ⟨opened, all⟩ := result
      obtain ⟨more, rfl, laid, depth⟩ := laid_of_scanFrom scanned
      rw [scanned] at accepted
      cases alone : loneReturn? .start bytes with
      | some place =>
          rw [alone] at accepted
          contradiction
      | none =>
          rw [alone] at accepted
          cases opened with
          | cons place opened => contradiction
          | nil =>
              obtain rfl : all = tokens := Except.ok.inj accepted
              exact ⟨laid, depth, loneReturn?_eq_none.mp alone⟩

/-- What the scanner accepts is cut into its tokens, whose braces balance. -/
theorem cut_of_scan {bytes : List UInt8} {tokens : List Token}
    (accepted : scan bytes = .ok tokens) :
    Cut bytes (tokens.map Token.key) ∧ Balanced (tokens.map Token.key) ∧ Paired bytes := by
  obtain ⟨laid, balanced, paired⟩ := laid_of_scan accepted
  exact ⟨laid.cut, balanced, paired⟩

theorem scan_of_cut {bytes : List UInt8} {keys : List (TokenKind × List UInt8)}
    (cut : Cut bytes keys) (balanced : Balanced keys) (paired : Paired bytes) :
    ∃ tokens, scan bytes = .ok tokens ∧ tokens.map Token.key = keys := by
  obtain ⟨left, tokens, scanned, same, none⟩ := @scanFrom_of_cut .start [] [] _ _ _ cut balanced
  obtain rfl : left = [] := List.length_eq_zero_iff.mp none
  refine ⟨tokens, ?_, same⟩
  unfold scan
  rw [scanned, loneReturn?_eq_none.mpr paired]
  rfl

end Acceptance

end ScriptConsole.Token
