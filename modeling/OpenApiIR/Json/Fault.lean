import OpenApiIR.Number.Limit

/-! What can be wrong with a JSON text, and where. A fault is found at a suffix of the text; its
position counts code points, its line and column count line feeds. A limit has no place. -/

namespace OpenApiIR.Json

inductive Fault where
  | value
  | propertyName
  | colon
  | comma
  | unterminatedString
  | controlCharacter
  | escape
  | unicodeEscape
  | extraData
  | byteOrderMark
  deriving DecidableEq, Repr

def Fault.description : Fault → String
  | .value => "Expecting value"
  | .propertyName => "Expecting property name enclosed in double quotes"
  | .colon => "Expecting ':' delimiter"
  | .comma => "Expecting ',' delimiter"
  | .unterminatedString => "Unterminated string starting at"
  | .controlCharacter => "Invalid control character at"
  | .escape => "Invalid \\escape"
  | .unicodeEscape => "Invalid \\uXXXX escape"
  | .extraData => "Extra data"
  | .byteOrderMark => "Unexpected UTF-8 BOM (decode using utf-8-sig)"

/-- A fault, and the rest of the text from the place where it was found. -/
structure Mistake where
  fault : Fault
  rest : List Char
  deriving DecidableEq, Repr

structure Error where
  fault : Fault
  line : Nat
  column : Nat
  position : Nat
  deriving DecidableEq, Repr

inductive Stop (ε : Type) where
  | error (e : ε)
  | limit (l : Limit)
  deriving DecidableEq, Repr

def Stop.map {ε ε' : Type} (f : ε → ε') : Stop ε → Stop ε'
  | .error e => .error (f e)
  | .limit l => .limit l

def Mistake.locate (text : List Char) (m : Mistake) : Error :=
  let position := text.length - m.rest.length
  let before := text.take position
  { fault := m.fault
    line := before.count '\n' + 1
    column := (before.reverse.takeWhile (· ≠ '\n')).length + 1
    position }

def Error.message (e : Error) : String :=
  e.fault.description ++ ": line " ++ toString e.line ++ " column " ++ toString e.column ++
    " (char " ++
    toString e.position ++ ")"

end OpenApiIR.Json
