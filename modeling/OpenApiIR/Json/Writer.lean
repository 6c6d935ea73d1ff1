import OpenApiIR.Document.Literal

/-! Writing JSON texts: two spaces for each level, one item or member a line, and every character as
itself unless a string may not hold it. -/

namespace OpenApiIR.Json

def escapeChar (c : Char) : List Char :=
  if c = '"' then ['\\', '"']
  else if c = '\\' then ['\\', '\\']
  else if c = '\n' then ['\\', 'n']
  else if c = '\r' then ['\\', 'r']
  else if c = '\t' then ['\\', 't']
  else if c = '\x0C' then ['\\', 'f']
  else if c = '\x08' then ['\\', 'b']
  else if c.toNat < 0x20 then '\\' :: 'u' :: Text.hexText 4 c.toNat
  else [c]

def stringText (s : String) : List Char := '"' :: s.toList.flatMap escapeChar ++ ['"']

/-- Numbers, truth values and null have words of their own; other scalars are written as strings. -/
def scalarText : Scalar → List Char
  | .null => "null".toList
  | .bool b => (if b then "true" else "false").toList
  | .int i => (toString i).toList
  | .float x => (x.spell ⟨-4, 16, 2, "NaN", "Infinity"⟩).toList
  | s => stringText s.text

def nameText : Scalar → List Char
  | .str s => stringText s
  | s => '"' :: scalarText s ++ ['"']

def newLine (level : Nat) : List Char := '\n' :: List.replicate (2 * level) ' '

def bracket (opening closing : Char) (level : Nat) : List (List Char) → List Char
  | [] => [opening, closing]
  | part :: parts =>
    opening :: newLine (level + 1) ++ part ++ parts.flatMap (',' :: newLine (level + 1) ++ ·) ++
      newLine level ++ [closing]

mutual

def writeValue (level : Nat) : Value → List Char
  | .scalar s => scalarText s
  | .seq items => bracket '[' ']' level (writeItems (level + 1) items)
  | .pair v w => bracket '[' ']' level [writeValue (level + 1) v, writeValue (level + 1) w]
  | .map entries => bracket '\x7b' '\x7d' level (writeMembers (level + 1) entries)
  | .set members => stringText (Value.setLiteral members)
  | .link _ => "null".toList

def writeItems (level : Nat) : List Value → List (List Char)
  | [] => []
  | v :: rest => writeValue level v :: writeItems level rest

def writeMembers (level : Nat) : List (Scalar × Value) → List (List Char)
  | [] => []
  | (k, v) :: rest => (nameText k ++ ':' :: ' ' :: writeValue level v) :: writeMembers level rest

end

def write (v : Value) : String := String.ofList (writeValue 0 v)

end OpenApiIR.Json
