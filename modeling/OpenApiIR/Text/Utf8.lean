import OpenApiIR.Text.Digit

/-! UTF-8. Bytes are read one character at a time, and what cannot be read is reported with its
place: the bytes that start like a character but do not go on like one. -/

namespace OpenApiIR.Text

inductive Utf8Fault where
  | startByte
  | continuation
  | endOfData
  deriving DecidableEq, Repr

def Utf8Fault.description : Utf8Fault → String
  | .startByte => "invalid start byte"
  | .continuation => "invalid continuation byte"
  | .endOfData => "unexpected end of data"

/-- A fault, the place of its first byte, that byte, and the number of bytes that belong to it. -/
structure Utf8Error where
  fault : Utf8Fault
  position : Nat
  byte : UInt8
  length : Nat
  deriving DecidableEq, Repr

/-- A single byte is named by its value, several by their first and last place. -/
def Utf8Error.message (e : Utf8Error) : String :=
  let place := if e.length = 1 then
      "byte 0x" ++ String.ofList (hexText 2 e.byte.toNat) ++ " in position " ++ toString e.position
    else "bytes in position " ++ toString e.position ++ "-" ++ toString (e.position + e.length - 1)
  "'utf-8' codec can't decode " ++ place ++ ": " ++ e.fault.description

/-- What the first byte of a character promises: the number of bytes to follow, the bits it gives,
and the bounds of the second byte. -/
structure Utf8Lead where
  following : Nat
  bits : Nat
  low : Nat
  high : Nat

def utf8Lead? (n : Nat) : Option Utf8Lead :=
  if n < 0x80 then some ⟨0, n, 0, 0⟩
  else if n < 0xC2 then none
  else if n < 0xE0 then some ⟨1, n - 0xC0, 0x80, 0xBF⟩
  else if n = 0xE0 then some ⟨2, 0, 0xA0, 0xBF⟩
  else if n = 0xED then some ⟨2, 0xD, 0x80, 0x9F⟩
  else if n < 0xF0 then some ⟨2, n - 0xE0, 0x80, 0xBF⟩
  else if n = 0xF0 then some ⟨3, 0, 0x90, 0xBF⟩
  else if n < 0xF4 then some ⟨3, n - 0xF0, 0x80, 0xBF⟩
  else if n = 0xF4 then some ⟨3, 4, 0x80, 0x8F⟩
  else none

/-- The rest of a character: `count` more bytes, the first of them within bounds. `seen` counts the
bytes of the character so far. -/
def utf8Rest (seen : Nat) : (count low high bits : Nat) → List UInt8 →
    Except (Utf8Fault × Nat) (Nat × List UInt8)
  | 0, _, _, bits, bs => .ok (bits, bs)
  | _ + 1, _, _, _, [] => .error (.endOfData, seen)
  | count + 1, low, high, bits, b :: bs =>
    if low ≤ b.toNat ∧ b.toNat ≤ high then
      utf8Rest (seen + 1) count 0x80 0xBF (bits * 64 + (b.toNat - 0x80)) bs
    else .error (.continuation, seen)

def utf8CharsFrom : (budget position : Nat) → List UInt8 → Except Utf8Error (List Char)
  | 0, _, _ => .ok []
  | _ + 1, _, [] => .ok []
  | budget + 1, position, b :: bs =>
    match utf8Lead? b.toNat with
    | none => .error ⟨.startByte, position, b, 1⟩
    | some lead =>
      match utf8Rest 1 lead.following lead.low lead.high lead.bits bs with
      | .error (fault, length) => .error ⟨fault, position, b, length⟩
      | .ok (n, rest) =>
        (utf8CharsFrom budget (position + 1 + lead.following) rest).map (Char.ofNat n :: ·)

def decodeUtf8 (bytes : List UInt8) : Except Utf8Error (List Char) :=
  utf8CharsFrom (bytes.length + 1) 0 bytes

end OpenApiIR.Text
