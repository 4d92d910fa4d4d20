import ScriptConsole.Proofs.Token.Ranges
import ScriptConsole.Source.Basic

/-! # Lines of a source

Newlines cut the bytes of a source into lines (`ScriptConsole.Source.lines`). The table of lines
says where each of them starts and ends (`ScriptConsole.Source.IsLine.lineStart_eq`,
`ScriptConsole.Source.IsLine.lineBytes_eq`), and for numbers of no line it says something inside of
the source all the same (`ScriptConsole.Source.lineStart_le`).
-/

namespace ScriptConsole.Source

section Definitions

/-- The lines of bytes, which are what newlines separate. -/
def lines (bytes : List UInt8) : List (List UInt8) :=
  bytes.splitOn '\n'.toUInt8

/-- The number of bytes before a line: those of the lines before it, with their newlines. -/
def bytesBefore (bytes : List UInt8) (line : Nat) : Nat :=
  (((lines bytes).take (line - 1)).flatMap (· ++ ['\n'.toUInt8])).length

/-- A line without one carriage return at its end. -/
def withoutReturn (line : List UInt8) : List UInt8 :=
  if line.getLast? = some '\r'.toUInt8 then line.dropLast else line

/-- Bytes end in a newline if there are any. -/
def EndsLine (front : List UInt8) : Prop :=
  front = [] ∨ ∃ earlier, front = earlier ++ ['\n'.toUInt8]

/-- Bytes have a line between what is in front of it and what is behind it. -/
structure IsLine (bytes front line behind : List UInt8) : Prop where
  split : bytes = front ++ line ++ behind
  front : EndsLine front
  whole : '\n'.toUInt8 ∉ line
  behind : behind = [] ∨ ∃ later, behind = '\n'.toUInt8 :: later

end Definitions

section Splitting

theorem lines_append (front rest : List UInt8) :
    lines (front ++ '\n'.toUInt8 :: rest) = lines front ++ lines rest :=
  List.splitOnP_append_cons front rest (beq_self_eq_true _)

theorem lines_eq_singleton {line : List UInt8} (whole : '\n'.toUInt8 ∉ line) :
    lines line = [line] := by
  refine List.splitOnP_eq_singleton fun byte member => ?_
  rw [beq_eq_false_iff_ne]
  rintro rfl
  exact whole member

/-- The first line of bytes, and what is behind it. -/
theorem exists_line (bytes : List UInt8) : ∃ line behind, IsLine bytes [] line behind := by
  induction bytes with
  | nil => exact ⟨[], [], rfl, .inl rfl, List.not_mem_nil, .inl rfl⟩
  | cons byte bytes ih =>
      by_cases newline : byte = '\n'.toUInt8
      · exact ⟨[], byte :: bytes, rfl, .inl rfl, List.not_mem_nil, .inr ⟨bytes, by rw [newline]⟩⟩
      · obtain ⟨line, behind, rfl, _, whole, ends⟩ := ih
        refine ⟨byte :: line, behind, rfl, .inl rfl, ?_, ends⟩
        exact List.not_mem_cons_of_ne_of_not_mem (Ne.symm newline) whole

/-- What holds of a line, and of bytes that a line is put in front of, holds of all bytes. -/
theorem lines_induction {motive : List UInt8 → Prop}
    (last : ∀ line, '\n'.toUInt8 ∉ line → motive line)
    (next : ∀ line rest, '\n'.toUInt8 ∉ line → motive rest → motive (line ++ '\n'.toUInt8 :: rest))
    (bytes : List UInt8) : motive bytes := by
  induction length : bytes.length using Nat.strongRecOn generalizing bytes with
  | _ _ ih =>
      obtain ⟨line, behind, rfl, -, whole, ends⟩ := exists_line bytes
      rw [List.nil_append] at length ⊢
      obtain rfl | ⟨rest, rfl⟩ := ends
      · rw [List.append_nil]
        exact last line whole
      · refine next line rest whole (ih rest.length ?_ rest rfl)
        rw [← length, List.length_append, List.length_cons]
        omega

theorem length_lines (bytes : List UInt8) :
    (lines bytes).length = bytes.count '\n'.toUInt8 + 1 := by
  induction bytes using lines_induction with
  | last line whole =>
      rw [lines_eq_singleton whole, List.count_eq_zero.mpr whole]
      rfl
  | next line rest whole ih =>
      rw [lines_append, lines_eq_singleton whole, List.length_append, ih, List.count_append,
        List.count_eq_zero.mpr whole, List.count_cons_self, List.length_singleton]
      omega

/-- The lines with their newlines are the bytes and a newline at their end. -/
theorem flatMap_lines (bytes : List UInt8) :
    (lines bytes).flatMap (· ++ ['\n'.toUInt8]) = bytes ++ ['\n'.toUInt8] := by
  induction bytes using lines_induction with
  | last line whole => rw [lines_eq_singleton whole, List.flatMap_singleton]
  | next line rest whole ih =>
      rw [lines_append, lines_eq_singleton whole, List.flatMap_append, List.flatMap_singleton, ih,
        List.append_assoc, List.append_assoc]
      rfl

/-- The last line of bytes, and what is in front of it. -/
theorem exists_last_line (bytes : List UInt8) : ∃ front line, IsLine bytes front line [] := by
  induction bytes with
  | nil => exact ⟨[], [], rfl, .inl rfl, List.not_mem_nil, .inl rfl⟩
  | cons byte bytes ih =>
      obtain ⟨front, line, rfl, ends, whole, last⟩ := ih
      by_cases newline : byte = '\n'.toUInt8
      · refine ⟨byte :: front, line, rfl, .inr ?_, whole, last⟩
        obtain rfl | ⟨earlier, rfl⟩ := ends
        · exact ⟨[], by rw [newline]; rfl⟩
        · exact ⟨byte :: earlier, rfl⟩
      · obtain rfl | ⟨earlier, rfl⟩ := ends
        · refine ⟨[], byte :: line, rfl, .inl rfl, ?_, last⟩
          exact List.not_mem_cons_of_ne_of_not_mem (Ne.symm newline) whole
        · exact ⟨byte :: (earlier ++ ['\n'.toUInt8]), line, rfl, .inr ⟨byte :: earlier, rfl⟩, whole,
            last⟩

/-- What is before a place and what is behind it meet in a line. -/
theorem exists_isLine (before after : List UInt8) : ∃ front inner rest behind,
    before = front ++ inner ∧ after = rest ++ behind ∧
      IsLine (before ++ after) front (inner ++ rest) behind := by
  obtain ⟨front, inner, first⟩ := exists_last_line before
  obtain ⟨rest, behind, last⟩ := exists_line after
  have start : before = front ++ inner := by rw [first.split, List.append_nil]
  have stop : after = rest ++ behind := last.split
  refine ⟨front, inner, rest, behind, start, stop, ?_, first.front, ?_, last.behind⟩
  · rw [start, stop, List.append_assoc, List.append_assoc, List.append_assoc]
  · rw [List.mem_append, not_or]
    exact ⟨first.whole, last.whole⟩

variable {bytes front line behind : List UInt8}

/-- A line has as many lines before it as there are newlines in front of it. -/
theorem IsLine.exists_lines (isLine : IsLine bytes front line behind) :
    ∃ earlier later, lines bytes = earlier ++ line :: later ∧
      earlier.length = front.count '\n'.toUInt8 ∧
      earlier.flatMap (· ++ ['\n'.toUInt8]) = front := by
  obtain ⟨later, rest⟩ : ∃ later, lines (line ++ behind) = line :: later := by
    obtain rfl | ⟨more, rfl⟩ := isLine.behind
    · exact ⟨[], by rw [List.append_nil, lines_eq_singleton isLine.whole]⟩
    · exact ⟨lines more, by rw [lines_append, lines_eq_singleton isLine.whole]; rfl⟩
  obtain rfl | ⟨earlier, rfl⟩ := isLine.front
  · refine ⟨[], later, ?_, rfl, rfl⟩
    rw [isLine.split]
    exact rest
  · refine ⟨lines earlier, later, ?_, ?_, ?_⟩
    · rw [isLine.split, List.append_assoc, List.append_assoc, List.singleton_append, lines_append,
        rest]
    · rw [length_lines, List.count_append, List.count_singleton_self]
    · exact flatMap_lines earlier

/-- The line that a number stands for. -/
theorem IsLine.getElem?_lines (isLine : IsLine bytes front line behind) :
    (lines bytes)[front.count '\n'.toUInt8]? = some line := by
  obtain ⟨earlier, later, split, counted, -⟩ := isLine.exists_lines
  rw [split, ← counted, List.getElem?_append_right (Nat.le_refl _), Nat.sub_self]
  rfl

theorem IsLine.bytesBefore_eq (isLine : IsLine bytes front line behind) :
    bytesBefore bytes (front.count '\n'.toUInt8 + 1) = front.length := by
  obtain ⟨earlier, later, split, counted, joined⟩ := isLine.exists_lines
  unfold bytesBefore
  rw [split, Nat.add_sub_cancel, ← counted, List.take_left, joined]

end Splitting

section Table

/-- The places behind newlines in two pieces are those in the first, and those in the second behind
it. -/
theorem afterNewlines_append (offset : Nat) (first second : List UInt8) :
    afterNewlines offset (first ++ second) =
      afterNewlines offset first ++ afterNewlines (offset + first.length) second := by
  induction first generalizing offset with
  | nil => rfl
  | cons byte first ih =>
      have next : offset + (byte :: first).length = offset + 1 + first.length := by
        rw [List.length_cons]
        omega
      rw [List.cons_append, afterNewlines, afterNewlines, ih, next]
      split <;> rfl

theorem afterNewlines_eq_nil (offset : Nat) {line : List UInt8} (whole : '\n'.toUInt8 ∉ line) :
    afterNewlines offset line = [] := by
  induction line generalizing offset with
  | nil => rfl
  | cons byte line ih =>
      rw [List.mem_cons, not_or] at whole
      obtain ⟨other, whole⟩ := whole
      rw [afterNewlines, if_neg (Ne.symm other), ih _ whole]

theorem length_afterNewlines (offset : Nat) (bytes : List UInt8) :
    (afterNewlines offset bytes).length = bytes.count '\n'.toUInt8 := by
  induction bytes generalizing offset with
  | nil => rfl
  | cons byte bytes ih =>
      rw [afterNewlines, List.count_cons]
      by_cases newline : byte = '\n'.toUInt8
      · rw [if_pos newline, List.length_cons, ih, if_pos (beq_iff_eq.mpr newline)]
      · rw [if_neg newline, ih, if_neg (newline ∘ beq_iff_eq.mp)]
        rfl

/-- A place behind a newline is at most at the end of the bytes. -/
theorem le_of_mem_afterNewlines {offset after : Nat} {bytes : List UInt8}
    (member : after ∈ afterNewlines offset bytes) : after ≤ offset + bytes.length := by
  induction bytes generalizing offset with
  | nil => contradiction
  | cons byte bytes ih =>
      rw [List.length_cons]
      rw [afterNewlines] at member
      split at member
      · rcases List.mem_cons.mp member with rfl | member
        · omega
        · have := ih member
          omega
      · have := ih member
        omega

variable {source : Source} {front line behind : List UInt8}

/-- The entries of the table at a line and behind it. -/
theorem IsLine.exists_lineTable (isLine : IsLine source.bytes front line behind) :
    ∃ earlier later,
      source.lineTable = earlier ++ front.length :: (front.length + line.length + 1) :: later ∧
      earlier.length = front.count '\n'.toUInt8 + 1 := by
  obtain ⟨later, rest⟩ : ∃ later,
      afterNewlines front.length (line ++ behind) ++ [source.bytes.length + 1] =
        (front.length + line.length + 1) :: later := by
    rw [afterNewlines_append, afterNewlines_eq_nil _ isLine.whole, List.nil_append]
    obtain rfl | ⟨more, rfl⟩ := isLine.behind
    · exact ⟨[], by rw [isLine.split, List.append_nil, List.length_append]; rfl⟩
    · exact ⟨_, by rw [afterNewlines, if_pos rfl, List.cons_append]⟩
  have table : source.lineTable =
      0 :: (0 :: afterNewlines 0 front) ++ (front.length + line.length + 1) :: later := by
    unfold lineTable
    rw [isLine.split, List.append_assoc front, afterNewlines_append, Nat.zero_add, ← rest,
      List.cons_append, List.cons_append, List.cons_append, List.cons_append, List.append_assoc,
      isLine.split, List.append_assoc]
  obtain empty | ⟨before, ends⟩ := isLine.front
  · refine ⟨[0], later, ?_, ?_⟩
    · rw [table, empty]
      rfl
    · rw [empty]
      rfl
  · refine ⟨0 :: 0 :: afterNewlines 0 before, later, ?_, ?_⟩
    · rw [table, ends, afterNewlines_append, List.length_append, Nat.zero_add, afterNewlines,
        if_pos rfl]
      simp only [afterNewlines, List.cons_append, List.append_assoc, List.nil_append,
        List.length_singleton]
    · rw [ends, List.count_append, List.count_singleton_self, List.length_cons, List.length_cons,
        length_afterNewlines]

/-- A line starts behind the lines before it. -/
theorem IsLine.lineStart_eq (isLine : IsLine source.bytes front line behind) :
    source.lineStart (front.count '\n'.toUInt8 + 1) = front.length := by
  obtain ⟨earlier, later, table, counted⟩ := isLine.exists_lineTable
  have last : source.lineTable.length - 2 = earlier.length + later.length := by
    rw [table, List.length_append, List.length_cons, List.length_cons]
    omega
  unfold lineStart
  dsimp only
  rw [last, ← counted, Nat.min_eq_left (Nat.le_add_right _ _), List.getD_eq_getElem?_getD, table,
    List.getElem?_append_right (Nat.le_refl _), Nat.sub_self]
  rfl

theorem getLast?_front (ends : EndsLine front) : front.getLast? ≠ some '\r'.toUInt8 := by
  obtain rfl | ⟨earlier, rfl⟩ := ends
  · exact nofun
  · rw [List.getLast?_concat]
    decide

/-- The byte before the end of a line is a carriage return of the line itself. -/
theorem IsLine.returns_iff {bytes : List UInt8} (isLine : IsLine bytes front line behind) :
    (0 < front.length + line.length ∧
      bytes[front.length + line.length - 1]? = some '\r'.toUInt8) ↔
      line.getLast? = some '\r'.toUInt8 := by
  rw [isLine.split, ← List.length_append]
  by_cases empty : front ++ line = []
  · rw [empty, (List.append_eq_nil_iff.mp empty).2]
    exact iff_of_false (fun both => absurd both.1 (Nat.lt_irrefl 0)) nofun
  · have positive := List.length_pos_iff.mpr empty
    rw [List.getElem?_append_left (Nat.sub_one_lt (Nat.ne_of_gt positive)),
      ← List.getLast?_eq_getElem?, List.getLast?_append, and_iff_right positive]
    cases line.getLast? with
    | some byte => exact Iff.rfl
    | none => exact iff_of_false (getLast?_front isLine.front) nofun

/-- A line ends before its newline and before one carriage return. -/
theorem IsLine.lineEnd_eq (isLine : IsLine source.bytes front line behind) :
    source.lineEnd (front.count '\n'.toUInt8 + 1) = front.length + (withoutReturn line).length := by
  obtain ⟨earlier, later, table, counted⟩ := isLine.exists_lineTable
  have last : source.lineTable.length - 1 = earlier.length + 1 + later.length := by
    rw [table, List.length_append, List.length_cons, List.length_cons]
    omega
  have next : source.lineTable.getD (earlier.length + 1) 0 = front.length + line.length + 1 := by
    rw [List.getD_eq_getElem?_getD, table, List.getElem?_append_right (Nat.le_add_right _ _),
      Nat.add_sub_cancel_left]
    rfl
  have inside : front.length + line.length ≤ source.bytes.length := by
    rw [isLine.split, List.length_append, List.length_append]
    omega
  unfold lineEnd withoutReturn
  dsimp only
  rw [last, ← counted, Nat.min_eq_left (Nat.le_add_right _ _), next, Nat.add_sub_cancel,
    Nat.min_eq_left inside]
  by_cases returns : line.getLast? = some '\r'.toUInt8
  · have ⟨positive, byte⟩ := isLine.returns_iff.mpr returns
    have some : line ≠ [] := by
      rintro rfl
      contradiction
    have long := List.length_pos_iff.mpr some
    simp only [positive, byte, returns, decide_true, BEq.rfl, Bool.and_self, ↓reduceIte,
      List.length_dropLast]
    omega
  · rw [if_neg returns, if_neg]
    rw [Bool.and_eq_true, decide_eq_true_eq, beq_iff_eq, isLine.returns_iff]
    exact returns

theorem withoutReturn_prefix (line : List UInt8) : withoutReturn line <+: line := by
  unfold withoutReturn
  split
  · exact List.dropLast_prefix line
  · exact List.prefix_rfl

/-- The bytes of a line are those between its newlines, without one carriage return. -/
theorem IsLine.lineBytes_eq (isLine : IsLine source.bytes front line behind) :
    source.lineBytes (front.count '\n'.toUInt8 + 1) = withoutReturn line := by
  obtain ⟨cut, same⟩ := withoutReturn_prefix line
  have rest : source.bytes.drop front.length = withoutReturn line ++ (cut ++ behind) := by
    rw [← List.append_assoc, same, isLine.split, List.append_assoc, List.drop_left]
  unfold lineBytes slice
  dsimp only
  rw [isLine.lineStart_eq, isLine.lineEnd_eq, Nat.max_eq_right (Nat.le_add_right _ _),
    Nat.add_sub_cancel_left, rest, List.take_left]

/-- Whatever number it is asked for, the table says a start inside of the source. -/
theorem lineStart_le (source : Source) (line : Nat) :
    source.lineStart line ≤ source.bytes.length := by
  have short : min line (source.lineTable.length - 2) <
      (0 :: 0 :: afterNewlines 0 source.bytes).length := by
    unfold lineTable
    rw [List.length_append, List.length_singleton, List.length_cons]
    omega
  unfold lineStart
  dsimp only
  generalize min line (source.lineTable.length - 2) = index at short
  unfold lineTable
  rw [List.getD_eq_getElem?_getD, List.getElem?_append_left short]
  cases found : (0 :: 0 :: afterNewlines 0 source.bytes)[index]? with
  | none => exact Nat.zero_le _
  | some start =>
      have member := List.mem_of_getElem? found
      rw [List.mem_cons, List.mem_cons] at member
      obtain rfl | rfl | after := member
      · exact Nat.zero_le _
      · exact Nat.zero_le _
      · exact Nat.le_trans (le_of_mem_afterNewlines after) (Nat.le_of_eq (Nat.zero_add _))

theorem lineEnd_le (source : Source) (line : Nat) : source.lineEnd line ≤ source.bytes.length := by
  unfold lineEnd
  dsimp only
  split
  · exact Nat.le_trans (Nat.sub_le _ _) (Nat.min_le_right _ _)
  · exact Nat.min_le_right _ _

end Table

end ScriptConsole.Source
