import OpenApiIR.Text.CodePoint
import OpenApiIR.Text.Digit
import OpenApiIR.Text.Printable

/-! Quoted texts, as messages show them. A text stands between single quotes, or between double
quotes when it holds single ones only; what cannot be printed is written as a numeric escape. -/

namespace OpenApiIR.Text

def numericEscape (n : Nat) : List Char :=
  if n < 0x100 then '\\' :: 'x' :: hexText 2 n
  else if n < 0x10000 then '\\' :: 'u' :: hexText 4 n
  else '\\' :: 'U' :: hexText 8 n

def quoteFor (cs : List Char) : Char := if cs.contains '\'' && !cs.contains '"' then '"' else '\''

def escapeChar (quote c : Char) : List Char :=
  if c = quote ∨ c = '\\' then ['\\', c]
  else if c = '\n' then ['\\', 'n']
  else if c = '\r' then ['\\', 'r']
  else if c = '\t' then ['\\', 't']
  else if isPrintable c then [c]
  else numericEscape (codePoint c)

/-- What a stream shows that has no bytes for halves of surrogate pairs: a numeric escape in the
place of each. -/
def backslashed (s : String) : String :=
  String.ofList (s.toList.flatMap fun c => if isHalf c then numericEscape (codePoint c) else [c])

def quoted (s : String) : String :=
  let q := quoteFor s.toList
  String.ofList (q :: s.toList.flatMap (escapeChar q) ++ [q])

/-- Bytes as the quoted ASCII text with the same codes, after the letter `b`. -/
def quotedBytes (bytes : List UInt8) : String :=
  let cs := bytes.map fun b => Char.ofNat b.toNat
  let q := quoteFor cs
  let escape := fun c : Char => if c.toNat < 0x7F then escapeChar q c else numericEscape c.toNat
  String.ofList ('b' :: q :: cs.flatMap escape ++ [q])

end OpenApiIR.Text
