import OpenApiIR.Number.Binary64
import OpenApiIR.Text.Digit

/-! Decimal number texts: an optional sign, digits with an optional point among them, and an
optional power of ten. The grammars of the formats differ only in which parts they demand. -/

namespace OpenApiIR

structure Decimal where
  negative : Bool
  whole : List Char
  fraction : List Char
  power : Int

namespace Decimal

def value (d : Decimal) : Binary64 :=
  .ofDecimal d.negative (Text.decimalNat (d.whole ++ d.fraction)) (d.power - d.fraction.length)

def takeSign : List Char → Bool × List Char
  | '-' :: rest => (true, rest)
  | '+' :: rest => (false, rest)
  | cs => (false, cs)

def power? (cs : List Char) : Option Int :=
  let (negative, digits) := takeSign cs
  if digits.isEmpty || !digits.all Text.isDigit then none
  else
    let n : Int := Text.decimalNat digits
    some (if negative then -n else n)

/-- The whole text as `[sign] digits [. digits] [e power]`, with a digit on at least one side of the
point. -/
def ofChars? (cs : List Char) : Option Decimal :=
  let (negative, rest) := takeSign cs
  let whole := rest.takeWhile Text.isDigit
  let rest := rest.dropWhile Text.isDigit
  let (fraction, rest) := match rest with
    | '.' :: after => (after.takeWhile Text.isDigit, after.dropWhile Text.isDigit)
    | _ => ([], rest)
  if whole.isEmpty && fraction.isEmpty then none
  else match rest with
    | [] => some ⟨negative, whole, fraction, 0⟩
    | c :: after =>
      if c = 'e' ∨ c = 'E' then (power? after).map (⟨negative, whole, fraction, ·⟩) else none

/-- The text without its underscores, each of which has to stand alone between two digits. -/
def ungroup? (afterDigit : Bool) : List Char → Option (List Char)
  | [] => some []
  | [c] => if c = '_' then none else some [c]
  | c :: d :: rest =>
    if c = '_' then
      if afterDigit && Text.isDigit d then ungroup? true (d :: rest) else none
    else (ungroup? (Text.isDigit c) (d :: rest)).map (c :: ·)

end Decimal

/-- The words for the values that are no decimals, in any case of letters. -/
def Binary64.ofWord? (cs : List Char) : Option Binary64 :=
  let (negative, word) := Decimal.takeSign cs
  let word := String.ofList (word.map Char.toLower)
  if word = "inf" ∨ word = "infinity" then some (.infinite negative)
  else if word = "nan" then some .nan
  else none

def Binary64.ofChars? (cs : List Char) : Option Binary64 :=
  match Decimal.ofChars? cs with
  | some d => some d.value
  | none => Binary64.ofWord? cs

def Binary64.ofGroupedChars? (cs : List Char) : Option Binary64 :=
  (Decimal.ungroup? false cs).bind Binary64.ofChars?

end OpenApiIR
