import OpenApiIR.Document.Value
import OpenApiIR.Json.Fault
import OpenApiIR.Number.Decimal
import OpenApiIR.Text.CodePoint

/-! Reading JSON texts. A member whose name was there already replaces the earlier value and keeps
its place. Beside the grammar of the format the words `NaN`, `Infinity` and `-Infinity` are values.
Reading stops at a whole number of too many digits, and where collections inside one another leave
no room. -/

namespace OpenApiIR.Json

def isSpace (c : Char) : Bool := c = ' ' || c = '\t' || c = '\n' || c = '\r'

def skipSpace (cs : List Char) : List Char := cs.dropWhile isSpace

def simpleEscape? : Char → Option Char
  | '"' => some '"'
  | '\\' => some '\\'
  | '/' => some '/'
  | 'b' => some '\x08'
  | 'f' => some '\x0C'
  | 'n' => some '\n'
  | 'r' => some '\r'
  | 't' => some '\t'
  | _ => none

def hexQuad? (a b c d : Char) : Option Nat := do
  let w ← Text.hexValue? a
  let x ← Text.hexValue? b
  let y ← Text.hexValue? c
  let z ← Text.hexValue? d
  return ((w * 16 + x) * 16 + y) * 16 + z

def joinSurrogates (high low : Nat) : Char :=
  Char.ofNat (0x10000 + (high - 0xD800) * 0x400 + (low - 0xDC00))

/-- The characters of a string up to its closing quote, and the text after it. `start` is the text
from the opening quote on. Half a pair without its partner stays what it is. -/
def readString (start : List Char) : List Char → Except Mistake (List Char × List Char)
  | [] => .error ⟨.unterminatedString, start⟩
  | '"' :: rest => .ok ([], rest)
  | '\\' :: [] => .error ⟨.unterminatedString, start⟩
  | '\\' :: 'u' :: a :: b :: c :: d :: '\\' :: 'u' :: e :: f :: g :: h :: after :: rest =>
    match hexQuad? a b c d with
    | none => .error ⟨.unicodeEscape,
        'u' :: a :: b :: c :: d :: '\\' :: 'u' :: e :: f :: g :: h :: after :: rest⟩
    | some n =>
      if Text.isHighSurrogate n then
        match hexQuad? e f g h with
        | none => .error ⟨.unicodeEscape, 'u' :: e :: f :: g :: h :: after :: rest⟩
        | some m =>
          if Text.isLowSurrogate m then
            (readString start (after :: rest)).map fun (cs, r) => (joinSurrogates n m :: cs, r)
          else (readString start ('\\' :: 'u' :: e :: f :: g :: h :: after :: rest)).map
            fun (cs, r) => (Text.ofCodePoint n :: cs, r)
      else (readString start ('\\' :: 'u' :: e :: f :: g :: h :: after :: rest)).map
        fun (cs, r) => (Text.ofCodePoint n :: cs, r)
  | '\\' :: 'u' :: a :: b :: c :: d :: after :: rest =>
    match hexQuad? a b c d with
    | none => .error ⟨.unicodeEscape, 'u' :: a :: b :: c :: d :: after :: rest⟩
    | some n => (readString start (after :: rest)).map fun (cs, r) => (Text.ofCodePoint n :: cs, r)
  | '\\' :: 'u' :: rest => .error ⟨.unicodeEscape, 'u' :: rest⟩
  | '\\' :: c :: rest =>
    match simpleEscape? c with
    | none => .error ⟨.escape, '\\' :: c :: rest⟩
    | some x => (readString start rest).map fun (cs, r) => (x :: cs, r)
  | c :: rest =>
    if c.toNat < 0x20 then .error ⟨.controlCharacter, c :: rest⟩
    else (readString start rest).map fun (cs, r) => (c :: cs, r)

def takeFraction : List Char → List Char × List Char
  | '.' :: d :: rest =>
    if Text.isDigit d then (d :: rest.takeWhile Text.isDigit, rest.dropWhile Text.isDigit)
    else ([], '.' :: d :: rest)
  | cs => ([], cs)

def takePower : List Char → Option Int × List Char
  | c :: rest =>
    let (negative, digits) := Decimal.takeSign rest
    let run := digits.takeWhile Text.isDigit
    if (c = 'e' ∨ c = 'E') ∧ !run.isEmpty then
      let n : Int := Text.decimalNat run
      (some (if negative then -n else n), digits.dropWhile Text.isDigit)
    else (none, c :: rest)
  | [] => (none, [])

def takeWhole : List Char → List Char × List Char
  | '0' :: rest => (['0'], rest)
  | cs => (cs.takeWhile Text.isDigit, cs.dropWhile Text.isDigit)

/-- A number: an integer, unless it has a fraction or a power. Only an integer has a limit of
digits. -/
def readNumber? (cs : List Char) : Option (Except Limit Scalar × List Char) :=
  let (negative, rest) := match cs with
    | '-' :: rest => (true, rest)
    | _ => (false, cs)
  let (whole, rest) := takeWhole rest
  if whole.isEmpty then none
  else
    let (fraction, rest) := takeFraction rest
    let (power, rest) := takePower rest
    if fraction.isEmpty && power.isNone then
      match Limit.ofDigits? whole.length with
      | some l => some (.error l, rest)
      | none =>
        let n : Int := Text.decimalNat whole
        some (.ok (.int (if negative then -n else n)), rest)
    else some (.ok (.float (Decimal.value ⟨negative, whole, fraction, power.getD 0⟩)), rest)

def dropWord? : List Char → List Char → Option (List Char)
  | [], cs => some cs
  | w :: word, c :: cs => if w = c then dropWord? word cs else none
  | _ :: _, [] => none

def words : List (List Char × Scalar) := [
  ("null".toList, .null), ("true".toList, .bool true), ("false".toList, .bool false),
  ("NaN".toList, .float .nan), ("Infinity".toList, .float (.infinite false)),
  ("-Infinity".toList, .float (.infinite true))]

def readWord? (cs : List Char) : Option (Scalar × List Char) :=
  words.findSome? fun (word, s) => (dropWord? word cs).map (s, ·)

def mistaken {α : Type} (fault : Fault) (rest : List Char) : Except (Stop Mistake) α :=
  .error (.error ⟨fault, rest⟩)

def tooDeep {α : Type} (kind : String) : Except (Stop Mistake) α :=
  .error (.limit (.nesting (" while decoding a JSON " ++ kind ++ " from a unicode string")))

def takeString (start rest : List Char) : Except (Stop Mistake) (String × List Char) :=
  match readString start rest with
  | .ok (cs, r) => .ok (String.ofList cs, r)
  | .error m => .error (.error m)

def takeScalar (cs : List Char) : Except (Stop Mistake) (Scalar × List Char) :=
  match readWord? cs with
  | some (s, r) => .ok (s, r)
  | none => match readNumber? cs with
    | some (.ok s, r) => .ok (s, r)
    | some (.error l, _) => .error (.limit l)
    | none => mistaken .value cs

mutual

/-- A value at the start of the text, and the text after it. A collection takes some of the room.
Every step of the budget leaves a shorter text to read or turns to the parts of a collection, so
twice the length of the text is enough. -/
def readValue : (budget room : Nat) → List Char → Except (Stop Mistake) (Value × List Char)
  | 0, _, cs => mistaken .value cs
  | budget + 1, room, cs =>
    match cs with
    | '"' :: rest => (takeString cs rest).map fun (s, r) => (.str s, r)
    | '[' :: rest =>
      if room = 0 then tooDeep "array"
      else match skipSpace rest with
        | ']' :: after => .ok (.seq [], after)
        | inner => (readItems budget (room - 1) inner).map fun (xs, r) => (.seq xs, r)
    | '\x7b' :: rest =>
      if room = 0 then tooDeep "object"
      else match skipSpace rest with
        | '\x7d' :: after => .ok (.map [], after)
        | inner =>
          (readMembers budget (room - 1) inner).map fun (es, r) => (.map (Entries.ofPairs es), r)
    | _ => (takeScalar cs).map fun (s, r) => (.scalar s, r)

def readItems : (budget room : Nat) → List Char → Except (Stop Mistake) (List Value × List Char)
  | 0, _, cs => mistaken .value cs
  | budget + 1, room, cs => do
    let (v, rest) ← readValue budget room cs
    match skipSpace rest with
    | ']' :: after => return ([v], after)
    | ',' :: after =>
      let (vs, r) ← readItems budget room (skipSpace after)
      return (v :: vs, r)
    | other => mistaken .comma other

def readMembers : (budget room : Nat) → List Char →
    Except (Stop Mistake) (List (Scalar × Value) × List Char)
  | 0, _, cs => mistaken .propertyName cs
  | budget + 1, room, cs =>
    match cs with
    | '"' :: rest => do
      let (name, rest) ← takeString cs rest
      match skipSpace rest with
      | ':' :: after =>
        let (v, rest) ← readValue budget room (skipSpace after)
        let entry := (Scalar.str name, v)
        match skipSpace rest with
        | '\x7d' :: after => return ([entry], after)
        | ',' :: after =>
          let (es, r) ← readMembers budget room (skipSpace after)
          return (entry :: es, r)
        | other => mistaken .comma other
      | other => mistaken .colon other
    | other => mistaken .propertyName other

end

def readChars (room : Nat) (cs : List Char) : Except (Stop Mistake) Value :=
  match cs with
  | '\uFEFF' :: _ => mistaken .byteOrderMark cs
  | _ => do
    let (v, rest) ← readValue (2 * cs.length + 2) room (skipSpace cs)
    match skipSpace rest with
    | [] => return v
    | other => mistaken .extraData other

def read (room : Nat) (text : String) : Except (Stop Error) Value :=
  (readChars room text.toList).mapError (·.map (·.locate text.toList))

end OpenApiIR.Json
