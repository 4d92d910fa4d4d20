import ScriptConsole.Proofs.Parse.Faults

/-! # The marker under a line

The last two lines of a report are the line of source that it is about and a marker. Where a place
is in front of a character, the marker is behind as many characters as there are bytes in front of
the place (`ScriptConsole.Diagnostic.report_marks`). So it stands under the character if each one
before it is a single byte, and behind the line if the place is the end of the line; everywhere
else it stands too far to the right (`ScriptConsole.compileSource_marks`).
-/

namespace ScriptConsole

open Source

section Definitions

/-- The bytes of a line before a position and from it on. The line is read as the characters of
both, so that the position is in front of the first byte of a character or at the end. -/
structure Position.Divides (bytes : List UInt8) (position : Position) (inner rest : List UInt8) :
    Prop where
  placed : ∃ front line behind, IsLine bytes front line behind ∧
    withoutReturn line = inner ++ rest ∧ position.offset = front.length + inner.length
  apart : Utf8.decodeLossy (inner ++ rest) = Utf8.decodeLossy inner ++ Utf8.decodeLossy rest

namespace Diagnostic

/-- How many columns some characters take. -/
def columns (text : List Char) : Nat :=
  (text.flatMap printed).length

/-- Two lines are the last ones of a text. -/
def Ends (text : String) (above below : List Char) : Prop :=
  '\n' ∉ above ∧ '\n' ∉ below ∧ ∃ front, text.toList = front ++ '\n' :: (above ++ '\n' :: below)

/-- The last line but one prints some characters and others behind them, and the last line has a
marker in a column, counted from where the characters start. -/
def Marks (diagnostic : Diagnostic) (before after : List Char) (column : Nat) : Prop :=
  Ends diagnostic.render (" | ".toList ++ (before.flatMap printed ++ after.flatMap printed))
    (" | ".toList ++ (List.replicate column ' ' ++ ['~']))

end Diagnostic

end Definitions

namespace Diagnostic

section Columns

theorem columns_append (first second : List Char) :
    columns (first ++ second) = columns first + columns second := by
  unfold columns
  rw [List.flatMap_append, List.length_append]

theorem one_le_length_printed (c : Char) : 1 ≤ (printed c).length := by
  unfold printed
  split <;> exact Nat.succ_pos _

/-- Only no characters take no columns. -/
theorem columns_eq_zero_iff {text : List Char} : columns text = 0 ↔ text = [] := by
  constructor
  · cases text with
    | nil => exact fun _ => rfl
    | cons c text =>
        intro none
        have wide := one_le_length_printed c
        unfold columns at none
        rw [List.flatMap_cons, List.length_append] at none
        omega
  · rintro rfl
    rfl

theorem flatMap_underline (text : List Char) :
    text.flatMap underline = List.replicate (columns text) ' ' := by
  unfold underline columns
  rw [← List.map_flatMap, List.map_const']

theorem newline_notMem_printed {text : List Char} (whole : '\n' ∉ text) :
    '\n' ∉ text.flatMap printed := by
  intro member
  obtain ⟨c, listed, prints⟩ := List.mem_flatMap.mp member
  unfold printed at prints
  split at prints
  · exact absurd prints (by decide)
  · exact whole (List.mem_singleton.mp prints ▸ listed)

end Columns

section Lines

variable {text : String} {above below above' below' : List Char}

/-- The last line of a text is one line only. -/
theorem Ends.below_eq (ends : Ends text above below) (ends' : Ends text above' below') :
    below = below' := by
  obtain ⟨-, whole, front, split⟩ := ends
  obtain ⟨-, whole', front', split'⟩ := ends'
  have last {lines below : List Char} (whole : '\n' ∉ below) :
      (lines ++ '\n' :: below).reverse.takeWhile (· ≠ '\n') = below.reverse := by
    rw [List.reverse_append, List.reverse_cons, List.append_assoc, List.takeWhile_append_of_pos]
    · rw [List.singleton_append, List.takeWhile_cons_of_neg (by decide), List.append_nil]
    · intro c member
      rw [decide_eq_true_eq]
      rintro rfl
      exact whole (List.mem_reverse.mp member)
  have assoc (front above below : List Char) :
      front ++ '\n' :: (above ++ '\n' :: below) = (front ++ '\n' :: above) ++ '\n' :: below := by
    rw [List.append_assoc, List.cons_append]
  rw [assoc] at split split'
  rw [← List.reverse_inj, ← last whole, ← last whole', ← split, ← split']

/-- A report has its marker in one column only. -/
theorem Marks.column_eq {diagnostic : Diagnostic} {before after : List Char} {column other : Nat}
    (marks : diagnostic.Marks before after column) (marks' : diagnostic.Marks before after other) :
    column = other := by
  have same := congrArg List.length (Ends.below_eq marks marks')
  simp only [List.length_append, List.length_replicate] at same
  omega

end Lines

section Reports

/-- A report ends in its context and its marker. -/
theorem render_eq (diagnostic : Diagnostic) : ∃ front, diagnostic.render.toList =
    front ++ '\n' :: ((" | ".toList ++ diagnostic.context.flatMap printed) ++
      '\n' :: (" | ".toList ++ diagnostic.markerLine)) := by
  obtain ⟨heading, same⟩ : ∃ heading, diagnostic.render = heading ++ " | \n" ++ " | " ++
      String.ofList (diagnostic.context.flatMap printed) ++ "\n" ++ " | " ++
      String.ofList diagnostic.markerLine := ⟨_, rfl⟩
  have blank : " | \n".toList = " | ".toList ++ ['\n'] := by decide
  have newline : "\n".toList = ['\n'] := by decide
  refine ⟨heading.toList ++ " | ".toList, ?_⟩
  simp only [same, String.toList_append, String.toList_ofList, blank, newline, List.append_assoc,
    List.cons_append, List.nil_append]

variable {source : Source} {position : Position} {inner rest : List UInt8}

/-- A place between two characters of a line is in front of a character or at the end. -/
theorem divides_encodeChars {front behind : List UInt8} {before after : List Char}
    (isLine : IsLine source.bytes front (Utf8.encodeChars (before ++ after)) behind)
    (unreturned : withoutReturn (Utf8.encodeChars (before ++ after)) =
      Utf8.encodeChars (before ++ after))
    (offset : position.offset = front.length + (Utf8.encodeChars before).length) :
    position.Divides source.bytes (Utf8.encodeChars before) (Utf8.encodeChars after) where
  placed := ⟨front, _, behind, isLine, unreturned.trans (Utf8.encodeChars_append before after),
    offset⟩
  apart := by
    rw [← Utf8.encodeChars_append, Utf8.decodeLossy_encodeChars, Utf8.decodeLossy_encodeChars,
      Utf8.decodeLossy_encodeChars]

/-- The report of a place prints its line and marks the column behind as many characters as there
are bytes before the place. -/
theorem report_marks (onLine : position.OnLine source.bytes)
    (divides : position.Divides source.bytes inner rest) (message : String) :
    (report source position message).Marks (Utf8.decodeLossy inner) (Utf8.decodeLossy rest)
      (columns (Utf8.decodeLossy inner) + columns ((Utf8.decodeLossy rest).take
        (inner.length - (Utf8.decodeLossy inner).length))) := by
  obtain ⟨⟨front, line, behind, isLine, cut, offset⟩, apart⟩ := divides
  have prefixed : inner ++ rest <+: line := cut ▸ withoutReturn_prefix line
  have whole : '\n'.toUInt8 ∉ inner ++ rest := fun member => isLine.whole (prefixed.subset member)
  have number := onLine.line_eq isLine ((List.prefix_append inner rest).trans prefixed) offset
  have place : position.offset - source.lineStart position.line = inner.length := by
    rw [number, isLine.lineStart_eq, offset, Nat.add_sub_cancel_left]
  have context : Utf8.decodeLossy (source.lineBytes position.line) =
      Utf8.decodeLossy inner ++ Utf8.decodeLossy rest := by
    rw [number, isLine.lineBytes_eq, cut, apart]
  have read : '\n' ∉ Utf8.decodeLossy inner ++ Utf8.decodeLossy rest := fun member =>
    whole (Utf8.mem_of_mem_decodeLossy (by decide) (apart ▸ member))
  generalize Utf8.decodeLossy rest = after at context read ⊢
  have short := Utf8.length_decodeLossy_le inner
  generalize Utf8.decodeLossy inner = before at context read short ⊢
  refine ⟨?_, ?_, ?_⟩
  · rw [← List.flatMap_append, List.mem_append, not_or]
    exact ⟨by decide, newline_notMem_printed read⟩
  · rw [List.mem_append, List.mem_append, List.mem_replicate]
    simp
  · have marker : (report source position message).markerLine =
        List.replicate (columns before + columns (after.take (inner.length - before.length))) ' ' ++
          ['~'] := by
      unfold markerLine report
      dsimp only
      rw [place, context, Nat.add_sub_cancel, List.take_append, List.take_of_length_le short,
        flatMap_underline, columns_append]
    obtain ⟨front, rendered⟩ := (report source position message).render_eq
    refine ⟨front, ?_⟩
    rw [rendered, marker, ← List.flatMap_append, ← context]
    rfl

/-- The marker stands under the place if the place is the end of the line, or if as many characters
as bytes are in front of it. -/
theorem marks_iff (onLine : position.OnLine source.bytes)
    (divides : position.Divides source.bytes inner rest) (message : String) :
    (report source position message).Marks (Utf8.decodeLossy inner) (Utf8.decodeLossy rest)
        (columns (Utf8.decodeLossy inner)) ↔
      rest = [] ∨ (Utf8.decodeLossy inner).length = inner.length := by
  have marks := report_marks onLine divides message
  have short := Utf8.length_decodeLossy_le inner
  have room : (Utf8.decodeLossy rest).take (inner.length - (Utf8.decodeLossy inner).length) = [] ↔
      rest = [] ∨ (Utf8.decodeLossy inner).length = inner.length := by
    rw [List.take_eq_nil_iff, Utf8.decodeLossy_eq_nil_iff, or_comm]
    refine or_congr_right ?_
    omega
  rw [← room, ← columns_eq_zero_iff]
  constructor
  · intro under
    have same := under.column_eq marks
    omega
  · intro none
    rwa [none, Nat.add_zero] at marks

end Reports

end Diagnostic

/-- The report of an error marks the column behind as many characters as there are bytes before the
place of the error in its line. This is the column of the place if the place is the end of the line
or if each character before it is one byte, as ASCII is, and otherwise it is not. -/
theorem compileSource_marks {source : Source} {symbols : SymbolTable} {diagnostic : Diagnostic}
    (failed : (compileSource source symbols).1 = .error diagnostic) :
    ∃ fault, source.FailsWith symbols fault ∧ diagnostic = fault.diagnose source ∧
      ∀ inner rest, fault.position.Divides source.bytes inner rest →
        diagnostic.Marks (Utf8.decodeLossy inner) (Utf8.decodeLossy rest)
          (Diagnostic.columns (Utf8.decodeLossy inner) + Diagnostic.columns
            ((Utf8.decodeLossy rest).take (inner.length - (Utf8.decodeLossy inner).length))) ∧
        (diagnostic.Marks (Utf8.decodeLossy inner) (Utf8.decodeLossy rest)
            (Diagnostic.columns (Utf8.decodeLossy inner)) ↔
          rest = [] ∨ (Utf8.decodeLossy inner).length = inner.length) ∧
        ((∀ byte ∈ inner, byte < 0x80) → (Utf8.decodeLossy inner).length = inner.length) := by
  obtain ⟨fault, fails, rfl⟩ := compileSource_error failed
  refine ⟨fault, fails, rfl, fun inner rest divides => ⟨?_, ?_, ?_⟩⟩
  · exact Diagnostic.report_marks fails.placed.onLine divides _
  · exact Diagnostic.marks_iff fails.placed.onLine divides _
  · exact Utf8.length_decodeLossy_ascii

section Shown

/-- Where the report of an error says that it is. -/
private def errorPlace (source : Source) : Option (Nat × Nat) :=
  match (compileSource source (.empty 0)).1 with
  | .ok _ => none
  | .error diagnostic => some (diagnostic.line, diagnostic.column)

/-- The fault of the only error of a source stands in its line where the report says, which counts
columns from one. -/
private theorem exists_error {source : Source} {line place : Nat}
    (shown : errorPlace source = some (line, place + 2)) :
    ∃ diagnostic, (compileSource source (.empty 0)).1 = .error diagnostic ∧
      ∀ fault : Fault, diagnostic = fault.diagnose source →
        fault.position.offset = source.lineStart line + (place + 1) := by
  unfold errorPlace at shown
  cases failed : (compileSource source (.empty 0)).1 with
  | ok script =>
      rw [failed] at shown
      contradiction
  | error diagnostic =>
      rw [failed] at shown
      obtain ⟨number, column⟩ := Prod.mk.inj (Option.some.inj shown)
      refine ⟨diagnostic, rfl, fun fault same => ?_⟩
      subst same
      obtain rfl : fault.position.line = line := number
      have counted : fault.position.offset - source.lineStart fault.position.line + 1 = place + 2 :=
        column
      omega

/-- An expression is missing behind a tab. -/
private def tabbedSource : Source :=
  .ofText "" "%a = 1;\r\n\t%b = ; // é"

/-- A tab in front of an error is printed as blanks, and the marker of the sample stands behind
them. -/
theorem compileSource_marks_tabbed :
    ∃ diagnostic, (compileSource tabbedSource (.empty 0)).1 = .error diagnostic ∧
      diagnostic.Marks "\t%b = ".toList "; // é".toList 9 := by
  have shown : errorPlace tabbedSource = some (2, 7) := by decide +kernel
  obtain ⟨diagnostic, failed, offset⟩ := exists_error shown
  obtain ⟨fault, -, same, marks⟩ := compileSource_marks failed
  have isLine : IsLine tabbedSource.bytes (Utf8.encode "%a = 1;\r\n")
      (Utf8.encodeChars ("\t%b = ".toList ++ "; // é".toList)) [] :=
    ⟨by decide +kernel, .inr ⟨Utf8.encode "%a = 1;\r", by decide +kernel⟩, by decide +kernel,
      .inl rfl⟩
  have place : fault.position.offset = (Utf8.encode "%a = 1;\r\n").length +
      (Utf8.encodeChars "\t%b = ".toList).length := (offset fault same).trans (by decide +kernel)
  have divides := Diagnostic.divides_encodeChars isLine (by decide +kernel) place
  obtain ⟨-, under, ascii⟩ := marks _ _ divides
  have marked := under.mpr (.inr (ascii (by decide +kernel)))
  rw [Utf8.decodeLossy_encodeChars, Utf8.decodeLossy_encodeChars] at marked
  exact ⟨diagnostic, failed, marked⟩

/-- A bracket is closed behind a comment that is not ASCII. -/
private def commentedSource : Source :=
  .ofText "" "/*é*/ ) ;"

/-- Behind a character of two bytes the marker does not stand under the place of the error. -/
theorem compileSource_marks_beside :
    ¬∀ (source : Source) (symbols : SymbolTable) (diagnostic : Diagnostic) (fault : Fault)
      (inner rest : List UInt8),
      (compileSource source symbols).1 = .error diagnostic → source.FailsWith symbols fault →
      diagnostic = fault.diagnose source → fault.position.Divides source.bytes inner rest →
      diagnostic.Marks (Utf8.decodeLossy inner) (Utf8.decodeLossy rest)
        (Diagnostic.columns (Utf8.decodeLossy inner)) := by
  intro points
  have shown : errorPlace commentedSource = some (1, 8) := by decide +kernel
  obtain ⟨diagnostic, failed, offset⟩ := exists_error shown
  obtain ⟨fault, fails, same⟩ := compileSource_error failed
  have isLine : IsLine commentedSource.bytes []
      (Utf8.encodeChars ("/*é*/ ".toList ++ ") ;".toList)) [] :=
    ⟨by decide +kernel, .inl rfl, by decide +kernel, .inl rfl⟩
  have place : fault.position.offset = ([] : List UInt8).length +
      (Utf8.encodeChars "/*é*/ ".toList).length := (offset fault same).trans (by decide +kernel)
  have divides := Diagnostic.divides_encodeChars isLine (by decide +kernel) place
  have marks := points _ _ _ _ _ _ failed fails same divides
  subst same
  have apart := (Diagnostic.marks_iff fails.placed.onLine divides _).mp marks
  rw [Utf8.decodeLossy_encodeChars] at apart
  exact absurd apart (by decide +kernel)

end Shown

end ScriptConsole
