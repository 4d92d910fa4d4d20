import ScriptConsole.Proofs.Source.Lines
import ScriptConsole.Proofs.Text.Lossy
import ScriptConsole.Source.Diagnostic

/-! # Reports about places in a source

The report of a place names its line, shows the text of that line and counts the bytes before the
place in it (`ScriptConsole.Diagnostic.report_locates`). A report is made of any line and any offset
without a look outside of the source (`ScriptConsole.Diagnostic.report?_eq`).
-/

namespace ScriptConsole

open Source

/-- A position is between two bytes of a source, and not behind the carriage return of a line. -/
def Position.PlacedIn (bytes : List UInt8) (position : Position) : Prop :=
  ∃ before after, bytes = before ++ after ∧ position = Position.start.advance before ∧
    (before.getLast? = some '\r'.toUInt8 →
      ∃ byte, after.head? = some byte ∧ byte ≠ '\n'.toUInt8)

theorem Position.PlacedIn.onLine {bytes : List UInt8} {position : Position}
    (placed : position.PlacedIn bytes) : position.OnLine bytes := by
  obtain ⟨before, after, rfl, rfl, -⟩ := placed
  exact onLine_advance before after

/-- A position in a line has the number of the line. -/
theorem Position.OnLine.line_eq {bytes front line behind inner : List UInt8} {position : Position}
    (onLine : position.OnLine bytes) (isLine : IsLine bytes front line behind)
    (within : inner <+: line) (offset : position.offset = front.length + inner.length) :
    position.line = front.count '\n'.toUInt8 + 1 := by
  obtain ⟨rest, rfl⟩ := within
  have before : bytes.take (front.length + inner.length) = front ++ inner := by
    rw [isLine.split, ← List.length_append, List.append_assoc, List.append_assoc,
      ← List.append_assoc front, List.take_left]
  have none := List.count_eq_zero.mpr fun member => isLine.whole (List.mem_append_left rest member)
  unfold OnLine at onLine
  rw [onLine, offset, before, List.count_append, none]
  exact Nat.add_comm _ _

namespace Diagnostic

/-- A report says where a position stands in a source. -/
structure Locates (bytes : List UInt8) (position : Position) (diagnostic : Diagnostic) : Prop where
  inside : position.offset ≤ bytes.length
  line : diagnostic.line = 1 + (bytes.take position.offset).count '\n'.toUInt8
  among : 1 ≤ diagnostic.line ∧ diagnostic.line ≤ (lines bytes).length
  /-- The context is the text of the line. -/
  context : ∃ text, (lines bytes)[diagnostic.line - 1]? = some text ∧
    diagnostic.context = Utf8.decodeLossy (withoutReturn text) ∧
    diagnostic.column - 1 ≤ (withoutReturn text).length
  column : 1 ≤ diagnostic.column ∧
    bytesBefore bytes diagnostic.line + (diagnostic.column - 1) = position.offset
  within : diagnostic.column - 1 ≤ (Utf8.encodeChars diagnostic.context).length

/-- What stands in a line before a place in it is no longer than the line without its carriage
return. -/
theorem length_le_withoutReturn {bytes front inner rest behind : List UInt8}
    (isLine : IsLine bytes front (inner ++ rest) behind)
    (apart : (front ++ inner).getLast? = some '\r'.toUInt8 →
      ∃ byte, (rest ++ behind).head? = some byte ∧ byte ≠ '\n'.toUInt8) :
    inner.length ≤ (withoutReturn (inner ++ rest)).length := by
  unfold withoutReturn
  split
  next returns =>
    have some : rest ≠ [] := by
      rintro rfl
      rw [List.append_nil] at returns
      obtain ⟨byte, head, other⟩ := apart (by rw [List.getLast?_append, returns]; rfl)
      obtain rfl | ⟨later, rfl⟩ := isLine.behind
      · contradiction
      · exact other (Option.some.inj head).symm
    have long := List.length_pos_iff.mpr some
    rw [List.length_dropLast, List.length_append]
    omega
  next =>
    rw [List.length_append]
    exact Nat.le_add_right _ _

/-- The report of a place says where it stands. -/
theorem report_locates (source : Source) {position : Position}
    (placed : position.PlacedIn source.bytes) (message : String) :
    (report source position message).Locates source.bytes position := by
  have onLine := placed.onLine
  obtain ⟨before, after, split, rfl, apart⟩ := placed
  obtain ⟨front, inner, rest, behind, rfl, rfl, isLine⟩ := exists_isLine before after
  rw [← split] at isLine
  have within := length_le_withoutReturn isLine apart
  have offset : (Position.start.advance (front ++ inner)).offset = front.length + inner.length := by
    rw [Position.offset_advance, List.length_append]
    exact Nat.zero_add _
  have line := onLine.line_eq isLine (List.prefix_append inner rest) offset
  have column : (Position.start.advance (front ++ inner)).offset -
      source.lineStart (Position.start.advance (front ++ inner)).line = inner.length := by
    rw [line, isLine.lineStart_eq, offset, Nat.add_sub_cancel_left]
  have text : source.lineBytes (Position.start.advance (front ++ inner)).line =
      withoutReturn (inner ++ rest) := by
    rw [line, isLine.lineBytes_eq]
  unfold report
  rw [column, text]
  exact {
    inside := by
      rw [offset, split, List.length_append, List.length_append]
      exact Nat.le_add_right _ _
    line := onLine
    among := by
      dsimp only
      rw [line, length_lines, split, List.count_append, List.count_append]
      omega
    context := by
      refine ⟨inner ++ rest, ?_, rfl, within⟩
      dsimp only
      rw [line, Nat.add_sub_cancel, isLine.getElem?_lines]
    column := by
      refine ⟨Nat.succ_pos _, ?_⟩
      dsimp only
      rw [line, isLine.bytesBefore_eq, offset, Nat.add_sub_cancel]
    within := Nat.le_trans within (Utf8.length_le_decodeLossy _) }

section Checked

/-- Where a line starts, if the table has an entry for it. -/
def lineStart? (source : Source) (line : Nat) : Option Nat :=
  let table := source.lineTable
  if 2 ≤ table.length then table[min line (table.length - 2)]? else none

/-- Where a line ends, if the table has an entry for it and no byte is asked for outside of the
source. -/
def lineEnd? (source : Source) (line : Nat) : Option Nat := do
  let table := source.lineTable
  let next ← if 1 ≤ table.length then table[min (line + 1) (table.length - 1)]? else none
  let last := min (next - 1) source.bytes.length
  if 0 < last then
    let byte ← source.bytes[last - 1]?
    return if byte = '\r'.toUInt8 then last - 1 else last
  else return last

/-- The report of a message at a place, if it can be made without a look outside of the table of
lines or the source and if its column fits into a word. -/
def report? (source : Source) (position : Position) (message : String) : Option Diagnostic := do
  let first ← lineStart? source position.line
  let last ← lineEnd? source position.line
  let text ← Token.section? source.bytes first (max first last)
  let column := position.offset - first + 1
  if column < UInt32.size then
    return ⟨source.filename, position.line, column, Utf8.decodeLossy text, message⟩
  else none

theorem two_le_length_lineTable (source : Source) : 2 ≤ source.lineTable.length :=
  Nat.succ_le_succ (Nat.succ_le_succ (Nat.zero_le _))

theorem lineStart?_eq (source : Source) (line : Nat) :
    lineStart? source line = some (source.lineStart line) := by
  have two := two_le_length_lineTable source
  have within : min line (source.lineTable.length - 2) < source.lineTable.length := by omega
  unfold lineStart? lineStart
  dsimp only
  rw [if_pos two, List.getD_eq_getElem?_getD, List.getElem?_eq_getElem within, Option.getD_some]

/-- The end of a line is found for every line that there is, also for the last one. -/
theorem lineEnd?_eq (source : Source) (line : Nat) :
    lineEnd? source line = some (source.lineEnd line) := by
  have two := two_le_length_lineTable source
  have within : min (line + 1) (source.lineTable.length - 1) < source.lineTable.length := by omega
  unfold lineEnd? lineEnd
  dsimp only
  rw [if_pos (Nat.le_of_succ_le two), List.getD_eq_getElem?_getD, List.getElem?_eq_getElem within,
    Option.getD_some, Option.bind_eq_bind, Option.bind_some]
  generalize source.lineTable[min (line + 1) (source.lineTable.length - 1)] = next
  by_cases positive : 0 < min (next - 1) source.bytes.length
  · have inside : min (next - 1) source.bytes.length - 1 < source.bytes.length := by omega
    simp only [positive, ↓reduceIte, List.getElem?_eq_getElem inside, decide_true,
      Bool.true_and, beq_iff_eq, Option.some.injEq]
    rfl
  · simp only [positive, ↓reduceIte, decide_false, Bool.false_and, Bool.false_eq_true]
    rfl

/-- A report is made of any line and any offset that is short of the last word, and no index of the
table or of the source is out of range on the way. -/
theorem report?_eq (source : Source) {position : Position}
    (short : position.offset < UInt32.size - 1) (message : String) :
    report? source position message = some (report source position message) := by
  have bound : max (source.lineStart position.line) (source.lineEnd position.line) ≤
      source.bytes.length :=
    Nat.max_le.mpr ⟨source.lineStart_le position.line, source.lineEnd_le position.line⟩
  have fits : position.offset - source.lineStart position.line + 1 < UInt32.size := by omega
  unfold report? Token.section?
  simp only [lineStart?_eq, lineEnd?_eq, Option.bind_eq_bind, Option.bind_some, Nat.le_max_left,
    bound, and_self, ↓reduceIte, fits]
  rfl

end Checked

end Diagnostic

end ScriptConsole
