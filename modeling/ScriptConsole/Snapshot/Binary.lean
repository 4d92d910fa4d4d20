import ScriptConsole.Snapshot.Basic
import ScriptConsole.Text.Utf8

/-! # The binary form of snapshots

A number takes eight bytes, the lowest first. A text is the number of its bytes and its
UTF-8 bytes, a list the number of its elements and the elements, and something that may
be missing a byte 0, or a byte 1 and the thing itself. What has parts is its parts in
order. Bytes after a snapshot are not read.
-/

namespace ScriptConsole.Snapshot

/-- Why bytes are not the binary form of a snapshot. -/
inductive DecodeError where
  | unexpectedEnd
  | malformedText
  /-- A byte that says whether something is there is neither 0 nor 1. -/
  | malformedTag (tag : UInt8)
  deriving DecidableEq

/-- The wording of a reason. -/
def DecodeError.message : DecodeError → String
  | unexpectedEnd => "unexpected end"
  | malformedText => "invalid utf8"
  | malformedTag tag => "tag for enum is not valid, found " ++ toString tag.toNat

/-- How many bytes a number takes. -/
def numberWidth : Nat := 8

/-- The lowest bytes of a number, the lowest first. -/
def littleEndian : Nat → Nat → List UInt8
  | 0, _ => []
  | width + 1, n => UInt8.ofNat (n % 256) :: littleEndian width (n / 256)

/-- The number of some bytes, the lowest first. -/
def ofLittleEndian (bytes : List UInt8) : Nat :=
  bytes.foldr (fun byte n => byte.toNat + 256 * n) 0

/-- The binary form of a number. -/
def encodeNumber (n : Nat) : List UInt8 :=
  littleEndian numberWidth n

/-- The binary form of a text. -/
def encodeText (text : String) : List UInt8 :=
  let bytes := Utf8.encode text
  encodeNumber bytes.length ++ bytes

/-- The binary form of a text that may be missing. -/
def encodeOption : Option String → List UInt8
  | none => [0]
  | some text => 1 :: encodeText text

/-- The binary form of a field. -/
def encodeField (field : FieldSnapshot) : List UInt8 :=
  encodeText field.name ++ encodeOption field.index ++ encodeText field.value

/-- The binary form of a list of fields. -/
def encodeFields (fields : List FieldSnapshot) : List UInt8 :=
  encodeNumber fields.length ++ fields.flatMap encodeField

mutual

/-- The binary form of a snapshot. -/
def encode : Snapshot → List UInt8
  | ⟨className, name, fields, children⟩ =>
    encodeText className ++ encodeOption name ++ encodeFields fields ++
      encodeNumber children.length ++ encodeAll children

/-- The binary forms of snapshots one after the other. -/
def encodeAll : List Snapshot → List UInt8
  | [] => []
  | snapshot :: snapshots => encode snapshot ++ encodeAll snapshots

end

/-- A reader of bytes from the front. -/
abbrev Decoder := StateT (List UInt8) (Except DecodeError)

/-- Takes bytes from the front. -/
def takeBytes (count : Nat) : Decoder (List UInt8) := fun bytes =>
  let taken := bytes.take count
  if taken.length < count then throw .unexpectedEnd else .ok (taken, bytes.drop count)

/-- Reads a number. -/
def decodeNumber : Decoder Nat :=
  return ofLittleEndian (← takeBytes numberWidth)

/-- Reads a text. -/
def decodeText : Decoder String := do
  match Utf8.decode? (← takeBytes (← decodeNumber)) with
  | some text => return String.ofList text
  | none => throw .malformedText

/-- Reads the byte that says whether something is there. -/
def decodePresence : Decoder Bool := fun
  | [] => throw .unexpectedEnd
  | tag :: bytes =>
    if tag = 0 then .ok (false, bytes)
    else if tag = 1 then .ok (true, bytes)
    else throw (.malformedTag tag)

/-- Reads a text that may be missing. -/
def decodeOption : Decoder (Option String) := do
  if ← decodePresence then return some (← decodeText) else return none

/-- Reads a field. -/
def decodeField : Decoder FieldSnapshot :=
  return { name := ← decodeText, index := ← decodeOption, value := ← decodeText }

/-- Reads elements one after the other. -/
def decodeMany {α : Type} (element : Decoder α) : Nat → Decoder (List α)
  | 0 => return []
  | count + 1 => return (← element) :: (← decodeMany element count)

/-- Reads a list. -/
def decodeList {α : Type} (element : Decoder α) : Decoder (List α) := do
  decodeMany element (← decodeNumber)

/-- Reads a snapshot with children inside one another at most as deep as the bound
says. -/
def decodeWithin : Nat → Decoder Snapshot
  | 0 => throw .unexpectedEnd
  | bound + 1 => do
    let className ← decodeText
    let name ← decodeOption
    let fields ← decodeList decodeField
    let children ← decodeList (decodeWithin bound)
    return { className, name, fields, children }

/-- Reads the snapshot at the front of some bytes. An object takes more than one byte, so
there is no deeper one than there are bytes. -/
def decode (bytes : List UInt8) : Except DecodeError Snapshot :=
  (decodeWithin (bytes.length + 1) bytes).map Prod.fst

end ScriptConsole.Snapshot
