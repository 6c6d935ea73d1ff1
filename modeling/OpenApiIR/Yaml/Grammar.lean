import OpenApiIR.Yaml.Implicit
import OpenApiIR.Yaml.Lexer
import OpenApiIR.Yaml.Node

/-! From tokens to the node graph. A node may be missing wherever the grammar leaves room for one;
it is an empty scalar then. Aliases become the numbers of the nodes they name. -/

namespace OpenApiIR.Yaml

structure Composer where
  tokens : List Token
  /-- The error that ended the tokens early. -/
  cut : Option Error
  handles : List (String × String)
  anchors : List (String × Nat)
  /-- The nodes around the current place. -/
  inside : List Nat
  nodes : Array Node
  completed : Array Nat
  cyclic : Bool
  /-- What the stack leaves for nodes inside one another. A node takes two parts of it. -/
  room : Nat

abbrev Compose := StateT Composer (Except Error)

namespace Compose

def refuse {α : Type} (f : Fault) : Compose α := throw (.fault f)

def peek : Compose Token := do
  let s ← get
  match s.tokens with
  | t :: _ => return t
  | [] => throw (s.cut.getD (.fault .unexpectedToken))

def drop : Compose Unit := modify fun s => { s with tokens := s.tokens.tail }

def nextIs (ts : List Token) : Compose Bool := return ts.contains (← peek)

def expect (t : Token) : Compose Unit := do
  if (← peek) = t then drop else refuse .unexpectedToken

def reserve : Compose Nat := do
  let n := (← get).nodes.size
  modify fun s => { s with nodes := s.nodes.push ⟨.null, .scalar ""⟩ }
  return n

def complete (n : Nat) (node : Node) : Compose Unit :=
  modify fun s => { s with nodes := s.nodes.setIfInBounds n node, completed := s.completed.push n }

def addNode (node : Node) : Compose Nat := do
  let n ← reserve
  complete n node
  return n

def missing : Compose Nat := addNode ⟨.null, .scalar ""⟩

def aliasNode (name : String) : Compose Nat := do
  let s ← get
  match s.anchors.lookup name with
  | none => refuse .undefinedAlias
  | some n =>
    if n ∈ s.inside then set { s with cyclic := true }
    return n

def setAnchor (name : String) (n : Nat) : Compose Unit := do
  let s ← get
  if (s.anchors.lookup name).isSome then refuse .duplicateAnchor
  else set { s with anchors := (name, n) :: s.anchors }

def tagName (handle : Option String) (suffix : String) : Compose String := do
  match handle with
  | none => return suffix
  | some h => match (← get).handles.lookup h with
    | some stem => return stem ++ suffix
    | none => refuse .undefinedHandle

def properties : Compose (Option String × Option String) := do
  match ← peek with
  | .anchor name =>
    drop
    match ← peek with
    | .tag h x => drop; return (some name, some (← tagName h x))
    | _ => return (some name, none)
  | .tag h x =>
    drop
    match ← peek with
    | .anchor name => drop; return (some name, some (← tagName h x))
    | _ => return (none, some (← tagName h x))
  | _ => return (none, none)

/-- The tag of a node: the one that is written, unless it is the lone mark. -/
def tagOr (tag : Option String) (default : Tag) : Tag :=
  match tag with
  | some name => if name = "!" then default else .ofName name
  | none => default

/-- The tag of a scalar; an unwritten tag, or the lone mark, leaves it to the text of a plain one.
-/
def scalarTag (tag : Option String) (text : String) (plain : Bool) : Tag :=
  match tag with
  | some name => if name = "!" then Implicit.tagOf text else .ofName name
  | none => if plain then Implicit.tagOf text else .str

/-- What stands inside a collection: the node is around everything that `read` meets. -/
def enclose {α : Type} (n : Nat) (read : Compose α) : Compose α := do
  let s ← get
  let around := s.inside
  if s.room < 2 * (around.length + 1) then throw (.misfit (.limit (.nesting "")))
  modify fun s => { s with inside := n :: around }
  let a ← read
  modify fun s => { s with inside := around }
  return a

mutual

/-- A node. Block collections may start only in blocks, and a sequence without indentation only
where a map's key or value may stand. -/
def node (inBlock unindented : Bool) : (budget : Nat) → Compose Nat
  | 0 => refuse .unexpectedToken
  | budget + 1 => do
    match ← peek with
    | .alias name => drop; aliasNode name
    | _ =>
      let (anchor, tag) ← properties
      let n ← reserve
      if let some name := anchor then setAnchor name n
      let next ← peek
      match next with
      | .scalar text plain =>
        drop
        complete n ⟨scalarTag tag text plain, .scalar text⟩
      | .flowSeqStart =>
        drop
        complete n ⟨tagOr tag .seq, .seq (← enclose n (flowItems true budget))⟩
      | .flowMapStart =>
        drop
        complete n ⟨tagOr tag .map, .map (← enclose n (flowEntries true budget))⟩
      | _ =>
        if unindented && next = .blockEntry then
          complete n ⟨tagOr tag .seq, .seq (← enclose n (unindentedItems budget))⟩
        else if inBlock && next = .blockSeqStart then
          drop
          complete n ⟨tagOr tag .seq, .seq (← enclose n (blockItems budget))⟩
        else if inBlock && next = .blockMapStart then
          drop
          complete n ⟨tagOr tag .map, .map (← enclose n (blockEntries budget))⟩
        else if anchor.isSome || tag.isSome then
          complete n ⟨scalarTag tag "" (tag.isNone), .scalar ""⟩
        else refuse .unexpectedToken
      return n

def blockNode (unindented : Bool) (ends : List Token) : (budget : Nat) → Compose Nat
  | 0 => refuse .unexpectedToken
  | budget + 1 => do if ← nextIs ends then missing else node true unindented budget

def flowNode (ends : List Token) : (budget : Nat) → Compose Nat
  | 0 => refuse .unexpectedToken
  | budget + 1 => do if ← nextIs ends then missing else node false false budget

def blockItems : (budget : Nat) → Compose (List Nat)
  | 0 => refuse .unexpectedToken
  | budget + 1 => do
    if ← nextIs [.blockEntry] then
      drop
      let n ← blockNode false [.blockEntry, .blockEnd] budget
      return n :: (← blockItems budget)
    else
      expect .blockEnd
      return []

def unindentedItems : (budget : Nat) → Compose (List Nat)
  | 0 => refuse .unexpectedToken
  | budget + 1 => do
    if ← nextIs [.blockEntry] then
      drop
      let n ← blockNode false [.blockEntry, .key, .value, .blockEnd] budget
      return n :: (← unindentedItems budget)
    else return []

def blockEntries : (budget : Nat) → Compose (List (Nat × Nat))
  | 0 => refuse .unexpectedToken
  | budget + 1 => do
    if ← nextIs [.key] then
      drop
      let k ← blockNode true [.key, .value, .blockEnd] budget
      let v ← if ← nextIs [.value] then do
          drop
          blockNode true [.key, .value, .blockEnd] budget
        else missing
      return (k, v) :: (← blockEntries budget)
    else
      expect .blockEnd
      return []

def flowValue (ends : List Token) : (budget : Nat) → Compose Nat
  | 0 => refuse .unexpectedToken
  | budget + 1 => do
    if ← nextIs [.value] then
      drop
      flowNode ends budget
    else missing

def flowItems (first : Bool) : (budget : Nat) → Compose (List Nat)
  | 0 => refuse .unexpectedToken
  | budget + 1 => do
    if ← nextIs [.flowSeqEnd] then
      drop
      return []
    else
      if !first then expect .flowEntry
      match ← peek with
      | .flowSeqEnd => drop; return []
      | .key =>
        drop
        let n ← reserve
        let entry ← enclose n do
          let k ← flowNode [.value, .flowEntry, .flowSeqEnd] budget
          let v ← flowValue [.flowEntry, .flowSeqEnd] budget
          return (k, v)
        complete n ⟨.map, .map [entry]⟩
        return n :: (← flowItems false budget)
      | _ =>
        let n ← node false false budget
        return n :: (← flowItems false budget)

def flowEntries (first : Bool) : (budget : Nat) → Compose (List (Nat × Nat))
  | 0 => refuse .unexpectedToken
  | budget + 1 => do
    if ← nextIs [.flowMapEnd] then
      drop
      return []
    else
      if !first then expect .flowEntry
      match ← peek with
      | .flowMapEnd => drop; return []
      | .key =>
        drop
        let k ← flowNode [.value, .flowEntry, .flowMapEnd] budget
        let v ← flowValue [.flowEntry, .flowMapEnd] budget
        return (k, v) :: (← flowEntries false budget)
      | _ =>
        let k ← node false false budget
        let v ← missing
        return (k, v) :: (← flowEntries false budget)

end

/-- The directives before a document. Each of them may stand once, and only version 1 is read. -/
def directives : (budget : Nat) → (versioned : Bool) → Compose Unit
  | 0, _ => refuse .unexpectedToken
  | budget + 1, versioned => do
    match ← peek with
    | .directive (.version major _) =>
      if versioned || major ≠ 1 then refuse .directive
      drop
      directives budget true
    | .directive (.tag handle stem) =>
      let s ← get
      if (s.handles.lookup handle).isSome then refuse .directive
      set { s with handles := (handle, stem) :: s.handles }
      drop
      directives budget versioned
    | .directive (.reserved _) =>
      drop
      directives budget versioned
    | _ => return ()

def defaultHandles : List (String × String) := [("!", "!"), ("!!", Tag.stem)]

def dropDocumentEnds : (budget : Nat) → Compose Unit
  | 0 => return ()
  | budget + 1 => do
    if ← nextIs [.documentEnd] then
      drop
      dropDocumentEnds budget

def isDocumentHead : Token → Bool
  | .directive _ | .documentStart | .streamEnd => true
  | _ => false

/-- The node of the only document, or `none` in a text without one. -/
def stream (budget : Nat) : Compose (Option Nat) := do
  let root ←
    if isDocumentHead (← peek) then do
      if ← nextIs [.streamEnd] then pure none
      else
        directives budget false
        expect .documentStart
        modify fun s => { s with
          handles := s.handles ++ defaultHandles.filter fun h => (s.handles.lookup h.1).isNone }
        let next ← peek
        if isDocumentHead next || next = .documentEnd then some <$> missing
        else some <$> node true false budget
    else do
      modify fun s => { s with handles := defaultHandles }
      some <$> node true false budget
  dropDocumentEnds budget
  if ← nextIs [.streamEnd] then return root
  else if isDocumentHead (← peek) then refuse .severalDocuments
  else refuse .unexpectedToken

end Compose

def NodeGraph.ofText (room : Nat) (text : List Char) : Except Error (Option NodeGraph) := do
  let (tokens, cut) := Token.ofText text
  let budget := 3 * tokens.size + 3
  let (root, s) ← (Compose.stream budget).run
    ⟨tokens.toList, cut, [], [], [], #[], #[], false, room⟩
  return root.map fun n => ⟨s.nodes, n, s.completed, s.cyclic⟩

end OpenApiIR.Yaml
