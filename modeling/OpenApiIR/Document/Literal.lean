import OpenApiIR.Document.Value

/-! The text that shows a value in a message: lists in brackets, pairs in round ones, maps and sets
in braces, and dots for a collection inside itself. -/

namespace OpenApiIR

namespace Value

def openBrace : String := "\x7b"
def closeBrace : String := "\x7d"

def setLiteral (members : List Scalar) : String :=
  if members.isEmpty then "set()"
  else openBrace ++ ", ".intercalate (members.map (·.literal)) ++ closeBrace

mutual

def literalWith (links : Nat → String) : Value → String
  | .scalar s => s.literal
  | .seq items => "[" ++ ", ".intercalate (literalItems links items) ++ "]"
  | .pair v w => "(" ++ literalWith links v ++ ", " ++ literalWith links w ++ ")"
  | .map entries => openBrace ++ ", ".intercalate (literalEntries links entries) ++ closeBrace
  | .set members => setLiteral members
  | .link n => links n

def literalItems (links : Nat → String) : List Value → List String
  | [] => []
  | v :: rest => literalWith links v :: literalItems links rest

def literalEntries (links : Nat → String) : List (Scalar × Value) → List String
  | [] => []
  | (k, v) :: rest => (k.literal ++ ": " ++ literalWith links v) :: literalEntries links rest

end

mutual

/-- The limit that is met first when a tree is shown, given those of its links. A value inside
another takes some of the room. -/
def limitWith (links : Nat → Nat → Option Limit) (room : Nat) : Value → Option Limit
  | .scalar s => if room = 0 then some .depth else s.limit?
  | .seq items => if room = 0 then some .depth else limitItems links (room - 1) items
  | .pair v w =>
    if room = 0 then some .depth
    else (limitWith links (room - 1) v).or (limitWith links (room - 1) w)
  | .map entries => if room = 0 then some .depth else limitEntries links (room - 1) entries
  | .set members => if room = 0 then some .depth else members.findSome? Scalar.limit?
  | .link n => links room n

def limitItems (links : Nat → Nat → Option Limit) (room : Nat) : List Value → Option Limit
  | [] => none
  | v :: rest => (limitWith links room v).or (limitItems links room rest)

def limitEntries (links : Nat → Nat → Option Limit) (room : Nat) :
    List (Scalar × Value) → Option Limit
  | [] => none
  | (k, v) :: rest => (k.limit?.or (limitWith links room v)).or (limitEntries links room rest)

end

end Value

namespace Graph

def dots (g : Graph) (n : Nat) : String :=
  match g.view (.link n) with
  | .seq _ => "[...]"
  | _ => Value.openBrace ++ "..." ++ Value.closeBrace

/-- The literal of a linked collection. `inside` names the collections around it, each at most once,
so a budget of one more than the number of cells never runs out. -/
def linkLiteral (g : Graph) : (budget : Nat) → (inside : List Nat) → Nat → String
  | 0, _, n => g.dots n
  | budget + 1, inside, n =>
    if n ∈ inside then g.dots n
    else (g.view (.link n)).literalWith (g.linkLiteral budget (n :: inside))

def literal (g : Graph) (v : Value) : String :=
  v.literalWith (g.linkLiteral (g.cells.size + 1) [])

/-- The text that stands for a value where a name is wanted: a scalar's own text, or a literal. -/
def text (g : Graph) : Value → String
  | .scalar s => s.text
  | v => g.literal v

/-- The limits of linked collections, met where `linkLiteral` shows more than dots. -/
def linkLimit (g : Graph) : (budget : Nat) → (inside : List Nat) → (room : Nat) → Nat → Option Limit
  | 0, _, _, _ => none
  | budget + 1, inside, room, n =>
    if n ∈ inside then none
    else (g.view (.link n)).limitWith (g.linkLimit budget (n :: inside)) room

def limit? (g : Graph) : Value → Option Limit
  | .scalar s => s.limit?
  | v => v.limitWith (g.linkLimit (g.cells.size + 1) []) g.room

def shown (g : Graph) (v : Value) : Except Limit String :=
  match g.limit? v with
  | some l => .error l
  | none => .ok (g.text v)

end Graph

end OpenApiIR
