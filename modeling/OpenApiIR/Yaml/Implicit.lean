import OpenApiIR.Text.Digit
import OpenApiIR.Text.Lines
import OpenApiIR.Yaml.Node
import OpenApiIR.Yaml.Stamp

/-! The types of plain scalars, told from their texts: truth values, numbers in several bases, null,
dates, the merge key and the value key. Everything else is a string. -/

namespace OpenApiIR.Yaml

namespace Implicit

def truthWords : List String := [
  "yes", "Yes", "YES", "no", "No", "NO", "true", "True", "TRUE", "false", "False", "FALSE",
  "on", "On", "ON", "off", "Off", "OFF"]

def nullWords : List String := ["", "~", "null", "Null", "NULL"]

def isSign (c : Char) : Bool := c = '+' || c = '-'

def dropSign : List Char → List Char
  | c :: rest => if isSign c then rest else c :: rest
  | [] => []

def isDigitOrBar (c : Char) : Bool := Text.isDigit c || c = '_'

def allOf (p : Char → Bool) (cs : List Char) : Bool := !cs.isEmpty && cs.all p

/-- One or two digits, the first of two at most 5: a part of a number in base 60. -/
def isSixtieth : List Char → Bool
  | [d] => Text.isDigit d
  | [t, d] => '0' ≤ t && t ≤ '5' && Text.isDigit d
  | _ => false

/-- Digits and bars, then parts in base 60, each after a colon. -/
def isBase60 (first : Char → Bool) (cs : List Char) : Bool :=
  match Text.splitOn ':' cs with
  | (d :: ds) :: parts => first d && ds.all isDigitOrBar && !parts.isEmpty && parts.all isSixtieth
  | _ => false

def isNonZeroDigit (c : Char) : Bool := '1' ≤ c && c ≤ '9'

def isInt (cs : List Char) : Bool :=
  match dropSign cs with
  | ['0'] => true
  | '0' :: 'b' :: ds => allOf (fun c => c = '0' || c = '1' || c = '_') ds
  | '0' :: 'x' :: ds => allOf (fun c => (Text.hexValue? c).isSome || c = '_') ds
  | '0' :: ds => allOf (fun c => ('0' ≤ c && c ≤ '7') || c = '_') ds
  | d :: ds => (isNonZeroDigit d && ds.all isDigitOrBar) || isBase60 isNonZeroDigit (d :: ds)
  | [] => false

def isExponent : List Char → Bool
  | [] => true
  | e :: s :: ds => (e = 'e' || e = 'E') && isSign s && allOf Text.isDigit ds
  | _ => false

def isFraction (cs : List Char) : Bool := isExponent (cs.dropWhile isDigitOrBar)

def isFloat (cs : List Char) : Bool :=
  let unsigned := dropSign cs
  let whole := unsigned.takeWhile isDigitOrBar
  let wordAfterPoint := fun (words : List String) (rest : List Char) =>
    words.contains (String.ofList rest)
  (match whole, unsigned.dropWhile isDigitOrBar with
    | d :: _, '.' :: rest => Text.isDigit d && isFraction rest
    | d :: _, ':' :: _ =>
      Text.isDigit d && (match unsigned.reverse.dropWhile isDigitOrBar with
        | '.' :: before => isBase60 Text.isDigit before.reverse
        | _ => false)
    | _, _ => false) ||
  (match cs with
    | '.' :: d :: rest => Text.isDigit d && isFraction rest
    | _ => false) ||
  (match unsigned with
    | '.' :: rest => wordAfterPoint ["inf", "Inf", "INF"] rest
    | _ => false) ||
  (match cs with
    | '.' :: rest => wordAfterPoint ["nan", "NaN", "NAN"] rest
    | _ => false)

def tagOf (text : String) : Tag :=
  let cs := text.toList
  if truthWords.contains text then .bool
  else if nullWords.contains text then .null
  else if text = "<<" then .merge
  else if text = "=" then .value
  else if isFloat cs then .float
  else if isInt cs then .int
  else if (Stamp.ofChars? cs).any (·.isPlain) then .timestamp
  else if ["!", "&", "*"].contains text then .other (Tag.stem ++ "yaml")
  else .str

end Implicit

end OpenApiIR.Yaml
