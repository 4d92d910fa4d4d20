import ScriptConsole.Proofs.Token.Cut

/-! # White space and comments between tokens

The texts of the tokens of a source can be written down again with other white space and
other comments between them (`ScriptConsole.Token.Spaced`). The scanner then finds the same
tokens.
-/

namespace ScriptConsole.Token

section Definitions

/-- White space and comments, each of which comes to its end. -/
inductive Filler : List UInt8 → Prop
  | nil : Filler []
  | space {byte rest} (blank : isSpace byte = true) (next : Filler rest) : Filler (byte :: rest)
  /-- A line comment ends in front of a newline or a carriage return. -/
  | line {body rest} (within : ∀ byte ∈ body, byte ≠ '\n'.toUInt8 ∧ byte ≠ '\r'.toUInt8)
    (ends : rest.head? = some '\n'.toUInt8 ∨ rest.head? = some '\r'.toUInt8)
    (next : Filler rest) : Filler ('/'.toUInt8 :: '/'.toUInt8 :: (body ++ rest))
  /-- A block comment ends at the first delimiter that closes it. -/
  | block {body rest} (within : ¬ ['*'.toUInt8, '/'.toUInt8] <:+: body) (next : Filler rest) :
    Filler ('/'.toUInt8 :: '*'.toUInt8 :: (body ++ '*'.toUInt8 :: '/'.toUInt8 :: rest))

/-- White space, perhaps with comments in it. -/
structure Gap (bytes : List UInt8) : Prop where
  filler : Filler bytes
  first : bytes.head?.any isSpace = true
  last : bytes.getLast?.any isSpace = true
  paired : Paired bytes

/-- Texts in order, with a gap between neighbours. -/
inductive Spaced : List (List UInt8) → List UInt8 → Prop
  | nil : Spaced [] []
  | single (text) : Spaced [text] text
  | gap {text next texts gap rest} (between : Gap gap) (others : Spaced (next :: texts) rest) :
    Spaced (text :: next :: texts) (text ++ (gap ++ rest))

/-- What is left of tokens without the comments. -/
def proper (keys : List (TokenKind × List UInt8)) : List (TokenKind × List UInt8) :=
  keys.filter fun key => !key.1.isComment

end Definitions

section Comments

/-- A line comment goes on up to the newline or the carriage return behind it. -/
theorem lineLength_line {body rest : List UInt8}
    (within : ∀ byte ∈ body, byte ≠ '\n'.toUInt8 ∧ byte ≠ '\r'.toUInt8)
    (ends : rest.head? = some '\n'.toUInt8 ∨ rest.head? = some '\r'.toUInt8) :
    lineLength ('/'.toUInt8 :: '/'.toUInt8 :: (body ++ rest)) = body.length + 2 := by
  have inside : ∀ byte ∈ '/'.toUInt8 :: '/'.toUInt8 :: body,
      (decide (byte ≠ '\n'.toUInt8) && decide (byte ≠ '\r'.toUInt8)) = true := by
    intro byte member
    rw [Bool.and_eq_true, decide_eq_true_eq, decide_eq_true_eq]
    rcases List.mem_cons.mp member with rfl | member
    · decide
    · rcases List.mem_cons.mp member with rfl | member
      · decide
      · exact within byte member
  have stops : rest.head?.any
      (fun byte => decide (byte ≠ '\n'.toUInt8) && decide (byte ≠ '\r'.toUInt8)) = false := by
    rcases ends with newline | return_
    · rw [newline]
      rfl
    · rw [return_]
      rfl
  have run := takeWhile_run inside stops
  exact congrArg List.length run

/-- A comment in a block ends at the first delimiter that closes it. A star in front of its text
must not close it at once. -/
theorem commentLength?_block {body : List UInt8} (length : Nat) {afterStar : Bool}
    (rest : List UInt8) (within : ¬ ['*'.toUInt8, '/'.toUInt8] <:+: body)
    (apart : afterStar = true → body.head? ≠ some '/'.toUInt8) :
    commentLength? length afterStar (body ++ '*'.toUInt8 :: '/'.toUInt8 :: rest) =
      some (length + body.length + 2) := by
  induction body generalizing length afterStar with
  | nil =>
      have star : (afterStar && decide ('*'.toUInt8 = '/'.toUInt8)) = false := Bool.and_false _
      rw [List.nil_append, commentLength?, star]
      rfl
  | cons byte body ih =>
      have goesOn : (afterStar && decide (byte = '/'.toUInt8)) = false := by
        rw [Bool.and_eq_false_imp, decide_eq_false_iff_not]
        rintro star rfl
        exact apart star rfl
      have inner : ¬ ['*'.toUInt8, '/'.toUInt8] <:+: body :=
        fun infix_ => within (List.infix_cons infix_)
      have next : decide (byte = '*'.toUInt8) = true → body.head? ≠ some '/'.toUInt8 := by
        intro star slash
        obtain ⟨more, rfl⟩ := List.head?_eq_some_iff.mp slash
        obtain rfl := of_decide_eq_true star
        exact within ⟨[], more, rfl⟩
      rw [List.cons_append, commentLength?, goesOn, if_neg (by decide), ih _ inner next,
        List.length_cons]
      congr 1
      omega

end Comments

section Cuts

theorem proper_map_key (tokens : List Token) :
    proper (tokens.map Token.key) = significant tokens :=
  List.filter_map

/-- White space and comments in front of tokens add comments at most. The induction is on the
filler: white space adds nothing, and a comment is cut off as one token. -/
theorem Cut.filler {filler rest : List UInt8} {keys : List (TokenKind × List UInt8)}
    (filling : Filler filler) (cut : Cut rest keys) :
    ∃ more, Cut (filler ++ rest) more ∧ proper more = proper keys := by
  induction filling with
  | nil => exact ⟨keys, cut, rfl⟩
  | space blank next ih =>
      obtain ⟨more, cut, same⟩ := ih
      exact ⟨more, .space blank cut, same⟩
  | @line body after within ends next ih =>
      obtain ⟨more, cut, same⟩ := ih
      have ends : (after ++ rest).head? = some '\n'.toUInt8 ∨
          (after ++ rest).head? = some '\r'.toUInt8 := by
        rw [List.head?_append]
        rcases ends with newline | return_
        · exact .inl (by rw [newline, Option.some_or])
        · exact .inr (by rw [return_, Option.some_or])
      have taken : piece '/'.toUInt8 (('/'.toUInt8 :: body) ++ (after ++ rest)) =
          .ok (.token .lineComment, ('/'.toUInt8 :: body).length + 1) := by
        rw [List.cons_append, piece_line, lineLength_line within ends, List.length_cons]
      have cut := Cut.token taken cut
      rw [List.cons_append, ← List.append_assoc] at cut
      exact ⟨_, cut, same⟩
  | @block body after within next ih =>
      obtain ⟨more, cut, same⟩ := ih
      let text := '*'.toUInt8 :: (body ++ ['*'.toUInt8, '/'.toUInt8])
      have spelled : text ++ (after ++ rest) =
          '*'.toUInt8 :: (body ++ '*'.toUInt8 :: '/'.toUInt8 :: (after ++ rest)) := by
        simp only [text, List.cons_append, List.append_assoc, List.nil_append]
      have measured : text.length + 1 = 2 + body.length + 2 := by
        simp only [text, List.length_cons, List.length_append, List.length_nil]
        omega
      have taken : piece '/'.toUInt8 (text ++ (after ++ rest)) =
          .ok (.token .blockComment, text.length + 1) := by
        have closed := @commentLength?_block body 2 false (after ++ rest) within nofun
        rw [spelled, piece_block, closed, measured]
      have cut := Cut.token taken cut
      rw [spelled] at cut
      refine ⟨(.blockComment, '/'.toUInt8 :: text) :: more, ?_, same⟩
      rw [List.cons_append, List.cons_append, List.append_assoc]
      exact cut

/-- A solid token is cut off in front of something that stops. -/
theorem Solid.cut {kind : TokenKind} {text tail : List UInt8}
    {keys : List (TokenKind × List UInt8)} (solid : Solid kind text) (stops : Stops tail)
    (cut : Cut tail keys) : Cut (text ++ tail) ((kind, text) :: keys) := by
  obtain ⟨first, body, rfl, reads⟩ := solid.reads
  exact .token (reads tail stops) cut

theorem Gap.stops {gap : List UInt8} (between : Gap gap) (rest : List UInt8) :
    Stops (gap ++ rest) := by
  intro byte head
  have first := between.first
  cases gap with
  | nil => contradiction
  | cons other gap =>
      obtain rfl : other = byte := Option.some.inj head
      exact first

theorem stops_nil : Stops [] :=
  nofun

/-- Solid tokens with gaps between them are cut into themselves and the comments. -/
theorem Spaced.cut {keys : List (TokenKind × List UInt8)} {texts : List (List UInt8)}
    {bytes : List UInt8} (spaced : Spaced texts bytes) (texts_eq : keys.map Prod.snd = texts)
    (solid : ∀ key ∈ keys, Solid key.1 key.2) : ∃ more, Cut bytes more ∧ proper more = keys := by
  have kept {key : TokenKind × List UInt8} (alone : Solid key.1 key.2)
      (more : List (TokenKind × List UInt8)) : proper (key :: more) = key :: proper more := by
    unfold proper
    rw [List.filter_cons_of_pos (by rw [alone.proper]; decide)]
  induction spaced generalizing keys with
  | nil =>
      obtain rfl := List.map_eq_nil_iff.mp texts_eq
      exact ⟨[], .nil, rfl⟩
  | single text =>
      obtain ⟨key, rfl, rfl⟩ := List.map_eq_singleton_iff.mp texts_eq
      have alone := solid key List.mem_cons_self
      refine ⟨[key], ?_, kept alone []⟩
      have cut := alone.cut stops_nil .nil
      rw [List.append_nil] at cut
      exact cut
  | @gap text next texts gap rest between others ih =>
      obtain ⟨key, keys, rfl, rfl, rest_eq⟩ := List.map_eq_cons_iff.mp texts_eq
      have alone := solid key List.mem_cons_self
      obtain ⟨more, cut, same⟩ :=
        ih rest_eq fun other member => solid other (List.mem_cons_of_mem key member)
      obtain ⟨filled, cut, filtered⟩ := cut.filler between.filler
      refine ⟨key :: filled, alone.cut (between.stops rest) cut, ?_⟩
      rw [kept alone, filtered, same]

theorem Spaced.paired {texts : List (List UInt8)} {bytes : List UInt8}
    (spaced : Spaced texts bytes) (without : ∀ text ∈ texts, '\r'.toUInt8 ∉ text) :
    Paired bytes := by
  induction spaced with
  | nil => exact paired_nil
  | single text => exact paired_of_not_mem (without text List.mem_cons_self)
  | @gap text next texts gap rest between others ih =>
      have later := ih fun other member => without other (List.mem_cons_of_mem text member)
      exact (paired_of_not_mem (without text List.mem_cons_self)).append
        (between.paired.append later)

/-- A token that was read is read again in any other place, if it is not a comment. -/
theorem solid_of_taken {kind : TokenKind} {first : UInt8} {body rest : List UInt8}
    (notComment : kind.isComment = false)
    (taken : piece first (body ++ rest) = .ok (.token kind, body.length + 1)) :
    Solid kind (first :: body) := by
  have started := starts_of_piece taken
  generalize measured : body.length + 1 = length at started
  cases started with
  | solid split solid =>
      obtain ⟨rfl, -⟩ := List.append_inj split (Nat.succ.inj measured)
      exact solid
  | comment _ comment =>
      rw [notComment] at comment
      contradiction

/-- The tokens of a cut that are not comments are solid and have no carriage return in them. -/
theorem Cut.solid {bytes : List UInt8} {keys : List (TokenKind × List UInt8)}
    (cut : Cut bytes keys) (paired : Paired bytes) :
    ∀ key ∈ proper keys, Solid key.1 key.2 ∧ '\r'.toUInt8 ∉ key.2 := by
  induction cut with
  | nil => exact fun key member => absurd member List.not_mem_nil
  | space blank next ih => exact ih (paired_cons.mp paired).2
  | @token kind first body rest keys taken next ih =>
      have whole : Paired ((first :: body) ++ rest) := paired
      intro key member
      obtain ⟨within, notComment⟩ := List.mem_filter.mp member
      rcases List.mem_cons.mp within with rfl | later
      · rw [Bool.not_eq_true'] at notComment
        have solid := solid_of_taken notComment taken
        exact ⟨solid, solid.not_mem_return whole⟩
      · exact ih whole.append_right key (List.mem_filter.mpr ⟨later, notComment⟩)

end Cuts

section Acceptance

/-- Solid tokens whose braces balance are found again with any gaps between them. -/
theorem scan_spaced {keys : List (TokenKind × List UInt8)} {bytes : List UInt8}
    (spaced : Spaced (keys.map Prod.snd) bytes)
    (solid : ∀ key ∈ keys, Solid key.1 key.2 ∧ '\r'.toUInt8 ∉ key.2) (balanced : Balanced keys) :
    ∃ tokens, scan bytes = .ok tokens ∧ significant tokens = keys := by
  obtain ⟨more, cut, same⟩ := spaced.cut rfl fun key member => (solid key member).1
  have paired : Paired bytes := by
    apply spaced.paired
    intro text member
    obtain ⟨key, within, rfl⟩ := List.mem_map.mp member
    exact (solid key within).2
  have balanced : Balanced more := by
    unfold Balanced at *
    rw [← same] at balanced
    rw [← depthAfter?_filter]
    exact balanced
  obtain ⟨tokens, scanned, keys_eq⟩ := scan_of_cut cut balanced paired
  refine ⟨tokens, scanned, ?_⟩
  rw [← proper_map_key, keys_eq, same]

/-- The tokens of a source are found again with any gaps between them. -/
theorem scan_respaced {bytes spaced : List UInt8} {tokens : List Token}
    (accepted : scan bytes = .ok tokens)
    (written : Spaced ((significant tokens).map Prod.snd) spaced) :
    ∃ others, scan spaced = .ok others ∧ significant others = significant tokens := by
  obtain ⟨cut, balanced, paired⟩ := cut_of_scan accepted
  have keys_eq := proper_map_key tokens
  apply scan_spaced written
  · rw [← keys_eq]
    exact cut.solid paired
  · unfold Balanced at *
    rw [← keys_eq]
    exact (depthAfter?_filter 0 _).trans balanced

end Acceptance

end ScriptConsole.Token
