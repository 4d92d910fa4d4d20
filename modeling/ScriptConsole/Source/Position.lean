/-! # Places in a source text -/

namespace ScriptConsole

/-- A place between two bytes: the number of its line, from 1, and the number of bytes
before it in the whole text. -/
structure Position where
  line : Nat
  offset : Nat
  deriving DecidableEq

namespace Position

/-- The place before the first byte. -/
def start : Position :=
  ⟨1, 0⟩

/-- The place after one more byte. -/
def step (position : Position) (byte : UInt8) : Position :=
  ⟨if byte = '\n'.toUInt8 then position.line + 1 else position.line, position.offset + 1⟩

/-- The place after more bytes. -/
def advance (position : Position) (bytes : List UInt8) : Position :=
  bytes.foldl step position

end Position

/-- The stretch of text between two places. -/
structure Span where
  first : Position
  last : Position
  deriving DecidableEq

end ScriptConsole
