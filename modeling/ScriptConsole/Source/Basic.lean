import ScriptConsole.Source.Position
import ScriptConsole.Text.Utf8

/-! # Source texts

The bytes of a script with the name of its file, which may be empty, the lines they
fall into, and a reader that moves through them.
-/

namespace ScriptConsole

/-- A script as it was handed over. -/
structure Source where
  filename : String
  bytes : List UInt8

namespace Source

/-- The source with the bytes of a text. -/
def ofText (filename text : String) : Source :=
  ⟨filename, Utf8.encode text⟩

/-- The bytes between two offsets. -/
def slice (source : Source) (first last : Nat) : List UInt8 :=
  (source.bytes.drop first).take (last - first)

/-- The bytes of a span. -/
def sliceSpan (source : Source) (span : Span) : List UInt8 :=
  source.slice span.first.offset span.last.offset

/-- The offsets just after each newline, for bytes that start at an offset. -/
def afterNewlines (offset : Nat) : List UInt8 → List Nat
  | [] => []
  | byte :: rest =>
    if byte = '\n'.toUInt8 then (offset + 1) :: afterNewlines (offset + 1) rest
    else afterNewlines (offset + 1) rest

/-- Where lines start, indexed by line number. The entry before the first line repeats
it, and the last entry stands one byte past the end, as if a newline closed the last
line. -/
def lineTable (source : Source) : List Nat :=
  0 :: 0 :: afterNewlines 0 source.bytes ++ [source.bytes.length + 1]

/-- The offset at which a line starts. A number past the last line stands for it. -/
def lineStart (source : Source) (line : Nat) : Nat :=
  let table := source.lineTable
  table.getD (min line (table.length - 2)) 0

/-- The offset at which a line ends, without its newline and one carriage return before
it. -/
def lineEnd (source : Source) (line : Nat) : Nat :=
  let table := source.lineTable
  let last := min (table.getD (min (line + 1) (table.length - 1)) 0 - 1) source.bytes.length
  if 0 < last && source.bytes[last - 1]? == some '\r'.toUInt8 then last - 1 else last

/-- The bytes of a line. -/
def lineBytes (source : Source) (line : Nat) : List UInt8 :=
  let first := source.lineStart line
  source.slice first (max first (source.lineEnd line))

end Source

/-- A place in a source from which reading continues: the bytes that are left and where
they start. -/
structure Reader where
  rest : List UInt8
  position : Position

namespace Reader

/-- The reader at the start of a source. -/
def ofSource (source : Source) : Reader :=
  ⟨source.bytes, .start⟩

/-- The byte a number of places ahead. -/
def peek? (reader : Reader) (ahead : Nat) : Option UInt8 :=
  reader.rest[ahead]?

/-- Moves past one byte; at the end it stays. -/
def consume (reader : Reader) : Reader :=
  match reader.rest with
  | [] => reader
  | byte :: rest => ⟨rest, reader.position.step byte⟩

end Reader

end ScriptConsole
