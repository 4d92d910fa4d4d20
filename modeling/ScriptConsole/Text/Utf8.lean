/-! # Text as bytes

The UTF-8 form of text, and two readers of bytes: a strict one, and one that puts
U+FFFD in place of each maximal part of a broken sequence.
-/

namespace ScriptConsole.Utf8

/-- The bytes of a sequence of characters. -/
def encodeChars (text : List Char) : List UInt8 :=
  text.flatMap String.utf8EncodeChar

/-- The bytes of a text. -/
def encode (text : String) : List UInt8 :=
  encodeChars text.toList

/-- What the first byte of a longer sequence announces: how many bytes follow, the
bits it contributes, and the range of the byte that comes next. -/
structure Lead where
  following : Nat
  bits : Nat
  low : UInt8
  high : UInt8

/-- The announcement of a byte that starts a sequence of two to four bytes. -/
def lead? (first : UInt8) : Option Lead :=
  let code := first.toNat
  if first < 0xC2 then none
  else if first < 0xE0 then some ⟨1, code - 0xC0, 0x80, 0xBF⟩
  else if first = 0xE0 then some ⟨2, code - 0xE0, 0xA0, 0xBF⟩
  else if first = 0xED then some ⟨2, code - 0xE0, 0x80, 0x9F⟩
  else if first < 0xF0 then some ⟨2, code - 0xE0, 0x80, 0xBF⟩
  else if first = 0xF0 then some ⟨3, code - 0xF0, 0x90, 0xBF⟩
  else if first < 0xF4 then some ⟨3, code - 0xF0, 0x80, 0xBF⟩
  else if first = 0xF4 then some ⟨3, code - 0xF0, 0x80, 0x8F⟩
  else none

/-- Appends the six bits of a continuation byte. -/
def extend (bits : Nat) (byte : UInt8) : Nat :=
  bits * 64 + (byte.toNat - 0x80)

/-- Whether a byte continues a sequence. -/
def continues (byte : UInt8) : Bool :=
  0x80 ≤ byte && byte ≤ 0xBF

/-- Reads bytes one character at a time. A maximal part of a broken sequence is read
as nothing. -/
def decodeEach : List UInt8 → List (Option Char)
  | [] => []
  | first :: rest =>
    if first < 0x80 then some (Char.ofNat first.toNat) :: decodeEach rest
    else match lead? first with
      | none => none :: decodeEach rest
      | some lead => match rest with
        | [] => [none]
        | second :: rest₂ =>
          if second < lead.low || lead.high < second then none :: decodeEach (second :: rest₂)
          else
            let bits := extend lead.bits second
            if lead.following = 1 then some (Char.ofNat bits) :: decodeEach rest₂
            else match rest₂ with
              | [] => [none]
              | third :: rest₃ =>
                if !continues third then none :: decodeEach (third :: rest₃)
                else
                  let bits := extend bits third
                  if lead.following = 2 then some (Char.ofNat bits) :: decodeEach rest₃
                  else match rest₃ with
                    | [] => [none]
                    | fourth :: rest₄ =>
                      if !continues fourth then none :: decodeEach (fourth :: rest₄)
                      else some (Char.ofNat (extend bits fourth)) :: decodeEach rest₄

/-- The characters of well-formed bytes. -/
def decode? (bytes : List UInt8) : Option (List Char) :=
  (decodeEach bytes).mapM id

/-- The characters of bytes, with U+FFFD for what is broken. -/
def decodeLossy (bytes : List UInt8) : List Char :=
  (decodeEach bytes).map (·.getD '\uFFFD')

/-- The text of bytes that are known to be ASCII. -/
def ofAscii (bytes : List UInt8) : String :=
  String.ofList (bytes.map fun byte => Char.ofNat byte.toNat)

end ScriptConsole.Utf8
