import OpenApiIR.Document.Scalar
import OpenApiIR.Number.Decimal
import OpenApiIR.Text.Blank
import OpenApiIR.Text.LetterCase
import OpenApiIR.Text.Lines
import OpenApiIR.Yaml.Implicit
import OpenApiIR.Yaml.Stamp

/-! The values of typed scalars. A type that was written out may stand before any text, so each
reading can fail. -/

namespace OpenApiIR.Yaml

namespace Typed

def digitIn? (base : Nat) (c : Char) : Option Nat := (Text.hexValue? c).filter (· < base)

def dropBase (base : Nat) : List Char → List Char
  | '0' :: c :: rest =>
    if (base = 16 ∧ c.toLower = 'x') ∨ (base = 8 ∧ c.toLower = 'o') ∨
      (base = 2 ∧ c.toLower = 'b') then rest
    else '0' :: c :: rest
  | cs => cs

def intIn? (base : Nat) (cs : List Char) : Option Int := do
  let (negative, ds) := Decimal.takeSign (Text.asciiDigits (Text.trim cs))
  let ds := dropBase base ds
  if ds.isEmpty then none
  else
    let n : Int := Text.natOfDigits base (← ds.mapM (digitIn? base))
    return if negative then -n else n

/-- Numbers with a colon are written in base 60, the last part least significant. -/
def base60 (parts : List Int) : Int := parts.foldl (fun n d => 60 * n + d) 0

def orNumber {α : Type} : Option α → Except Misfit α
  | some a => .ok a
  | none => .error .number

/-- An integer in base 10, which alone has a limit of digits. -/
def decimalInt (cs : List Char) : Except Misfit Int := do
  let n ← orNumber (intIn? 10 cs)
  match Limit.ofDigits? (Decimal.takeSign (Text.trim cs)).2.length with
  | some l => .error (.limit l)
  | none => return n

/-- The integer after the sign: in base 2, 16, 8, 60 or 10, told apart by how the text starts. -/
def unsignedInt (cs : List Char) : Except Misfit Int :=
  match cs with
  | [] => .error .emptyNumber
  | ['0'] => .ok 0
  | '0' :: 'b' :: rest => orNumber (intIn? 2 rest)
  | '0' :: 'x' :: rest => orNumber (intIn? 16 rest)
  | '0' :: _ => orNumber (intIn? 8 cs)
  | _ =>
    if cs.contains ':' then ((Text.splitOn ':' cs).mapM decimalInt).map base60
    else decimalInt cs

def withoutBars (s : String) : List Char := s.toList.filter (· ≠ '_')

def int (s : String) : Except Misfit Int :=
  match withoutBars s with
  | [] => .error .emptyNumber
  | c :: rest =>
    if c = '-' then (unsignedInt rest).map (- ·)
    else unsignedInt (if c = '+' then rest else c :: rest)

def decimal? (cs : List Char) : Option Binary64 :=
  Binary64.ofChars? (Text.asciiDigits (Text.trim cs))

/-- The sum of the parts, each times its power of 60; the last part is first. -/
def sum60 (acc : Binary64) (base : Int) : List Binary64 → Except Misfit Binary64
  | [] => .ok acc
  | d :: rest => match Binary64.ofInt base with
    | .infinite _ => .error .overflow
    | b => sum60 (acc.add (d.mul b)) (base * 60) rest

def unsignedFloat (cs : List Char) : Except Misfit Binary64 :=
  if cs = ".inf".toList then .ok (.infinite false)
  else if cs = ".nan".toList then .ok .nan
  else if cs.contains ':' then do
    let parts ← orNumber ((Text.splitOn ':' cs).mapM decimal?)
    sum60 (.zero false) 1 parts.reverse
  else orNumber (decimal? cs)

def float (s : String) : Except Misfit Binary64 :=
  match (withoutBars s).flatMap Text.lowerLetter with
  | [] => .error .emptyNumber
  | c :: rest =>
    if c = '-' then (unsignedFloat rest).map (·.negate)
    else unsignedFloat (if c = '+' then rest else c :: rest)

def bool (s : String) : Except Misfit Bool :=
  let word := Text.lower s
  if ["yes", "true", "on"].contains word then .ok true
  else if ["no", "false", "off"].contains word then .ok false
  else .error .truthValue

def sixBits? (c : Char) : Option Nat :=
  if 'A' ≤ c ∧ c ≤ 'Z' then some (c.toNat - 0x41)
  else if 'a' ≤ c ∧ c ≤ 'z' then some (c.toNat - 0x47)
  else if Text.isDigit c then some (c.toNat + 4)
  else if c = '+' then some 62
  else if c = '/' then some 63
  else none

/-- Bytes in base 64: four characters for three bytes. `held` counts the characters of the current
group, `bits` are those not yet given out, and `pads` counts the padding. Other characters are
skipped. -/
def bytesFrom (held bits pads : Nat) : List Char → Option (List UInt8)
  | [] => if held = 0 then some [] else none
  | c :: rest =>
    if c = '=' then
      if 2 ≤ held ∧ 4 ≤ held + pads + 1 then some []
      else bytesFrom held bits (if 2 ≤ held then pads + 1 else pads) rest
    else match sixBits? c with
      | none => bytesFrom held bits pads rest
      | some n =>
        if held = 0 then bytesFrom 1 n 0 rest
        else if held = 1 then (bytesFrom 2 (n % 16) 0 rest).map
          (UInt8.ofNat (bits * 4 + n / 16) :: ·)
        else if held = 2 then (bytesFrom 3 (n % 4) 0 rest).map
          (UInt8.ofNat (bits * 16 + n / 4) :: ·)
        else (bytesFrom 0 0 0 rest).map (UInt8.ofNat (bits * 64 + n) :: ·)

def bytes? (s : String) : Option (List UInt8) :=
  if s.toList.all (·.toNat < 0x80) then bytesFrom 0 0 0 s.toList else none

def timestamp (s : String) : Except Misfit Scalar :=
  match Stamp.ofChars? s.toList with
  | some stamp => stamp.scalar
  | none => .error .timestamp

def scalar (tag : Tag) (text : String) : Except Error Scalar :=
  match tag with
  | .null => .ok .null
  | .bool => ((bool text).map Scalar.bool).mapError .misfit
  | .int => ((int text).map Scalar.int).mapError .misfit
  | .float => ((float text).map Scalar.float).mapError .misfit
  | .timestamp => (timestamp text).mapError .misfit
  | .str => .ok (.str text)
  | .binary => match bytes? text with
    | some bs => .ok (.bytes bs)
    | none => .error (.fault .base64)
  | _ => .error (.fault .unknownTag)

end Typed

end OpenApiIR.Yaml
