import Mathlib.Data.List.Forall2
import ScriptConsole.Text.Blank
import ScriptConsole.Text.Fold
import ScriptConsole.Text.Split

/-! # Texts between slashes

A text writes names as a path (`ScriptConsole.Text.Writes`) in any letter case, with any number of
slashes between them and around them, and with white space around all. The slashes cut what is left
without the white space into the names (`ScriptConsole.Text.Writes.cased_pieces`).
-/

namespace ScriptConsole.Text

section Definitions

/-- There is no white space at either end of a text. -/
def Tight (text : List Char) : Prop :=
  ∀ c, text.head? = some c ∨ text.getLast? = some c → isBlank c = false

instance (text : List Char) : Decidable (Tight text) :=
  decidable_of_iff ((text.head?.toList ++ text.getLast?.toList).any isBlank = false) <| by
    simp only [Tight, List.any_eq_false, List.mem_append, Option.mem_toList, Bool.not_eq_true]

/-- A text consists of segments in order, with slashes between any two of them and maybe some
behind the last one. -/
inductive Joined : List (List Char) → List Char → Prop where
  | last (segment : List Char) (count : Nat) :
      Joined [segment] (segment ++ List.replicate count '/')
  | next (segment : List Char) (count : Nat) {segments : List (List Char)} {text : List Char}
      (rest : Joined segments text) :
      Joined (segment :: segments) (segment ++ (List.replicate (count + 1) '/' ++ text))

/-- Each segment is a name in some letter case. -/
def Cased (segments : List (List Char)) (names : List String) : Prop :=
  List.Forall₂ (fun segment name => fold (.ofList segment) = fold name) segments names

/-- A text consists of names with slashes between any two of them and maybe more around them, and
of white space around all. -/
inductive Writes (names : List String) : List Char → Prop where
  | intro {before text after : List Char} {segments : List (List Char)} (slashes : Nat)
      (blank : ∀ c ∈ before ++ after, isBlank c = true) (cased : Cased segments names)
      (joined : Joined segments text) :
      Writes names (before ++ (List.replicate slashes '/' ++ text) ++ after)

/-- What is left between the slashes of a text. -/
def pieces (text : List Char) : List (List Char) :=
  (split (· == '/') text).filter fun piece => !piece.isEmpty

end Definitions

section Case

variable {c d : Char} {first second : List Char}

theorem isAlpha_iff : c.isAlpha = true ↔
    65 ≤ c.toNat ∧ c.toNat ≤ 90 ∨ 97 ≤ c.toNat ∧ c.toNat ≤ 122 := by
  have upper : c.isUpper = true ↔ 65 ≤ c.toNat ∧ c.toNat ≤ 90 := decide_eq_true_iff
  have lower : c.isLower = true ↔ 97 ≤ c.toNat ∧ c.toNat ≤ 122 :=
    Bool.and_eq_true_iff.trans (and_congr decide_eq_true_iff decide_eq_true_iff)
  rw [← upper, ← lower]
  exact Bool.or_eq_true_iff

/-- A character in lower case is the same one, or both are letters. -/
theorem toLower_cases (c : Char) :
    c.toLower = c ∨ c.isAlpha = true ∧ c.toLower.isAlpha = true := by
  unfold Char.toLower
  split
  next upper =>
    have between : 65 ≤ c.val.toNat ∧ c.val.toNat ≤ 90 := upper
    refine .inr ⟨isAlpha_iff.mpr (.inl between), isAlpha_iff.mpr (.inr ?_)⟩
    have shifted : (c.val + 32).toNat = c.val.toNat + 32 := by
      refine (UInt32.toNat_add _ _).trans (Nat.mod_eq_of_lt ?_)
      change c.val.toNat + 32 < 2 ^ 32
      omega
    change 97 ≤ (c.val + 32).toNat ∧ (c.val + 32).toNat ≤ 122
    omega
  next => exact .inl rfl

/-- A character that is no letter is equal to no other one up to letter case. -/
theorem eq_of_toLower_eq (other : c.isAlpha = false) (same : d.toLower = c.toLower) : d = c := by
  rcases toLower_cases c with kept | ⟨letter, _⟩
  · rcases toLower_cases d with still | ⟨_, letter⟩
    · exact still.symm.trans (same.trans kept)
    · rw [same, kept, other] at letter
      contradiction
  · rw [other] at letter
    contradiction

theorem isAlpha_of_isBlank (blank : isBlank c = true) : c.isAlpha = false := by
  rw [← Bool.not_eq_true, isAlpha_iff]
  simp only [isBlank, Bool.or_eq_true, Bool.and_eq_true, decide_eq_true_eq, beq_iff_eq] at blank
  omega

/-- A text without letters is equal to no other one up to letter case. -/
theorem eq_of_map_toLower (letterless : ∀ c ∈ first, c.isAlpha = false)
    (same : second.map Char.toLower = first.map Char.toLower) : second = first := by
  induction first generalizing second with
  | nil => exact List.map_eq_nil_iff.mp same
  | cons c first ih =>
      obtain ⟨other, others⟩ := List.forall_mem_cons.mp letterless
      obtain ⟨d, second, rfl, head, tail⟩ := List.map_eq_cons_iff.mp same
      rw [eq_of_toLower_eq other head, ih others tail]

/-- A segment is a name in some letter case if they are the same in lower case. -/
theorem fold_eq_fold_iff {segment : List Char} {name : String} :
    fold (.ofList segment) = fold name ↔
      segment.map Char.toLower = name.toList.map Char.toLower := by
  unfold fold
  rw [String.ofList_inj, String.toList_ofList]

/-- A change of letter case adds no slashes. -/
theorem slash_notMem_of_map_toLower (whole : '/' ∉ second)
    (same : second.map Char.toLower = first.map Char.toLower) : '/' ∉ first := by
  intro member
  have there : Char.toLower '/' ∈ second.map Char.toLower :=
    same ▸ List.mem_map_of_mem member
  obtain ⟨c, among, lower⟩ := List.mem_map.mp there
  exact whole (eq_of_toLower_eq (by decide) lower ▸ among)

/-- A change of letter case adds no white space. -/
theorem Tight.of_map_toLower (tight : Tight second)
    (same : second.map Char.toLower = first.map Char.toLower) : Tight first := by
  intro c ends
  rw [← Bool.not_eq_true]
  intro blank
  have solid {d : Char} (lower : d.toLower = c.toLower)
      (ends : second.head? = some d ∨ second.getLast? = some d) : False := by
    have white := tight d ends
    rw [eq_of_toLower_eq (isAlpha_of_isBlank blank) lower, blank] at white
    contradiction
  have heads := congrArg List.head? same
  have lasts := congrArg List.getLast? same
  rw [List.head?_map, List.head?_map] at heads
  rw [List.getLast?_map, List.getLast?_map] at lasts
  rcases ends with head | last
  · rw [head, Option.map_some] at heads
    obtain ⟨d, found, lower⟩ := Option.map_eq_some_iff.mp heads
    exact solid lower (.inl found)
  · rw [last, Option.map_some] at lasts
    obtain ⟨d, found, lower⟩ := Option.map_eq_some_iff.mp lasts
    exact solid lower (.inr found)

end Case

section Trimming

variable {before body after : List Char}

theorem Tight.append {first second : List Char} (tight : Tight first) (rest : Tight second) :
    Tight (first ++ second) := by
  intro c ends
  rw [List.head?_append, List.getLast?_append, Option.or_eq_some_iff,
    Option.or_eq_some_iff] at ends
  rcases ends with (head | ⟨_, head⟩) | last | ⟨_, last⟩
  · exact tight c (.inl head)
  · exact rest c (.inl head)
  · exact rest c (.inr last)
  · exact tight c (.inr last)

theorem tight_slashes (count : Nat) : Tight (List.replicate count '/') := by
  intro c ends
  have member : c ∈ List.replicate count '/' :=
    ends.elim List.mem_of_head? List.mem_of_getLast?
  rw [List.eq_of_mem_replicate member]
  decide

theorem dropWhile_surrounded (blank : ∀ c ∈ before, isBlank c = true)
    (head : ∀ c, body.head? = some c → isBlank c = false) :
    (before ++ body).dropWhile isBlank = body := by
  rw [List.dropWhile_append_of_pos blank]
  cases body with
  | nil => rfl
  | cons c body => exact List.dropWhile_cons_of_neg (Bool.eq_false_iff.mp (head c rfl))

/-- White space around a text that has none at its ends is trimmed. -/
theorem trim_surrounded (blank : ∀ c ∈ before ++ after, isBlank c = true) (nonempty : body ≠ [])
    (tight : Tight body) : trim (before ++ body ++ after) = body := by
  have start : trimStart (before ++ body ++ after) = body ++ after := by
    unfold trimStart
    rw [List.append_assoc]
    refine dropWhile_surrounded (fun c member => blank c (List.mem_append_left after member)) ?_
    rw [List.head?_append_of_ne_nil _ nonempty]
    exact fun c head => tight c (.inl head)
  unfold trim trimEnd
  rw [start, List.reverse_append, dropWhile_surrounded, List.reverse_reverse]
  · exact fun c member => blank c (List.mem_append_right before (List.mem_reverse.mp member))
  · rw [List.head?_reverse]
    exact fun c last => tight c (.inr last)

end Trimming

section Pieces

/-- Splitting at separators is what the library does. -/
theorem split_eq_splitOnP (isSeparator : Char → Bool) (text : List Char) :
    split isSeparator text = text.splitOnP isSeparator := by
  unfold split
  induction text with
  | nil => rfl
  | cons c text ih =>
      rw [List.foldr_cons, ih, List.splitOnP_cons_eq_if_modifyHead]
      obtain ⟨piece, pieces, same⟩ :=
        List.exists_cons_of_ne_nil (List.splitOnP_ne_nil isSeparator text)
      rw [same]
      rfl

variable {segment text : List Char} {segments : List (List Char)}

theorem pieces_append (segment text : List Char) :
    pieces (segment ++ '/' :: text) = pieces segment ++ pieces text := by
  unfold pieces
  rw [split_eq_splitOnP, split_eq_splitOnP, split_eq_splitOnP, ← List.filter_append]
  exact congrArg _ (List.splitOnP_append_cons segment text (beq_self_eq_true '/'))

theorem pieces_replicate (count : Nat) (text : List Char) :
    pieces (List.replicate count '/' ++ text) = pieces text := by
  induction count with
  | zero => rfl
  | succ count ih =>
      rw [List.replicate_succ, List.cons_append]
      exact (pieces_append [] _).trans ih

/-- A segment without a slash is the only piece of itself. -/
theorem pieces_segment (nonempty : segment ≠ []) (whole : '/' ∉ segment) :
    pieces segment = [segment] := by
  unfold pieces
  rw [split_eq_splitOnP, List.splitOnP_eq_singleton]
  · cases segment with
    | nil => contradiction
    | cons c segment => rfl
  · intro c member
    rw [beq_eq_false_iff_ne]
    rintro rfl
    exact whole member

/-- A text that consists of segments is cut into these. -/
theorem Joined.pieces_eq (joined : Joined segments text)
    (solid : ∀ segment ∈ segments, segment ≠ [] ∧ '/' ∉ segment) : pieces text = segments := by
  induction joined with
  | last segment count =>
      obtain ⟨nonempty, whole⟩ := solid segment List.mem_cons_self
      cases count with
      | zero =>
          rw [List.replicate_zero, List.append_nil]
          exact pieces_segment nonempty whole
      | succ count =>
          have none := pieces_replicate count []
          rw [List.append_nil] at none
          rw [List.replicate_succ, pieces_append, pieces_segment nonempty whole, none]
          rfl
  | @next segment count segments text rest ih =>
      obtain ⟨⟨nonempty, whole⟩, others⟩ := List.forall_mem_cons.mp solid
      rw [List.replicate_succ, List.cons_append, pieces_append, pieces_segment nonempty whole,
        pieces_replicate, ih others]
      rfl

theorem Joined.ne_nil (joined : Joined segments text) (solid : ∀ segment ∈ segments, segment ≠ []) :
    text ≠ [] := by
  cases joined <;> exact List.append_ne_nil_of_left_ne_nil (solid _ List.mem_cons_self) _

theorem Joined.tight (joined : Joined segments text)
    (tight : ∀ segment ∈ segments, Tight segment) : Tight text := by
  induction joined with
  | last segment count =>
      exact (tight segment List.mem_cons_self).append (tight_slashes count)
  | @next segment count segments text rest ih =>
      obtain ⟨first, others⟩ := List.forall_mem_cons.mp tight
      exact first.append ((tight_slashes _).append (ih others))

variable {names : List String}

/-- Each segment is in the letter case of a name that has what the names have. -/
theorem Cased.forall_mem (cased : Cased segments names) {nameHas : String → Prop}
    {segmentHas : List Char → Prop} (has : ∀ name ∈ names, nameHas name)
    (kept : ∀ segment name, fold (.ofList segment) = fold name → nameHas name →
      segmentHas segment) : ∀ segment ∈ segments, segmentHas segment := by
  induction cased with
  | nil => exact fun _ member => absurd member List.not_mem_nil
  | cons same _ ih =>
      obtain ⟨first, others⟩ := List.forall_mem_cons.mp has
      exact List.forall_mem_cons.mpr ⟨kept _ _ same first, ih others⟩

/-- The slashes of a text that writes names cut it into the names. -/
theorem Writes.cased_pieces (writes : Writes names text)
    (solid : ∀ name ∈ names, name ≠ "" ∧ '/' ∉ name.toList ∧ Tight name.toList) :
    Cased (pieces (trim text)) names := by
  obtain @⟨before, text, after, segments, slashes, blank, cased, joined⟩ := writes
  have parts : ∀ segment ∈ segments, segment ≠ [] ∧ '/' ∉ segment ∧ Tight segment := by
    refine cased.forall_mem solid fun segment name same ⟨named, whole, tight⟩ => ?_
    have lower := (fold_eq_fold_iff.mp same).symm
    refine ⟨?_, slash_notMem_of_map_toLower whole lower, tight.of_map_toLower lower⟩
    rintro rfl
    rw [List.map_nil, List.map_eq_nil_iff, String.toList_eq_nil_iff] at lower
    exact named lower
  have nonempty := joined.ne_nil fun segment member => (parts segment member).1
  have tight := joined.tight fun segment member => (parts segment member).2.2
  rw [trim_surrounded blank (List.append_ne_nil_of_right_ne_nil _ nonempty)
    ((tight_slashes slashes).append tight), pieces_replicate,
    joined.pieces_eq fun segment member => ⟨(parts segment member).1, (parts segment member).2.1⟩]
  exact cased

end Pieces

end ScriptConsole.Text
