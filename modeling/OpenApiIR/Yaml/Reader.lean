import OpenApiIR.Document.Value
import OpenApiIR.Yaml.Grammar
import OpenApiIR.Yaml.Typed

/-! From a node graph to a document. Maps take in the entries of the maps they merge, and nodes that
stand in themselves become links. All nodes are checked first, level by level, so that the first
misfit decides what is wrong; after that every node has a value. -/

namespace OpenApiIR.Yaml

namespace NodeGraph

/-- The text of a scalar node; a map with a value key stands for the scalar under it. -/
def scalarText? (g : NodeGraph) : (budget : Nat) → Nat → Option String
  | 0, _ => none
  | budget + 1, n =>
    match (g.node n).content with
    | .scalar text => some text
    | .seq _ => none
    | .map entries =>
      (entries.find? fun e => (g.node e.1).tag == .value).bind fun e => g.scalarText? budget e.2

def size (g : NodeGraph) : Nat := g.nodes.size

def isMap (g : NodeGraph) (n : Nat) : Bool :=
  match (g.node n).content with
  | .map _ => true
  | _ => false

/-- The scalar that a node of a scalar type stands for. A timestamp wants a text of its own. -/
def scalar (g : NodeGraph) (tag : Tag) (n : Nat) : Except Error Scalar :=
  match g.scalarText? (g.size + 1) n with
  | some text =>
    if tag = .timestamp ∧ g.isMap n then .error (.misfit .mapping) else Typed.scalar tag text
  | none => match tag with
    | .other _ | .merge | .value => fail .unknownTag
    | _ => fail .wrongNodeKind

def keyTag (g : NodeGraph) (n : Nat) : Tag :=
  match (g.node n).tag with
  | .value => .str
  | t => t

def mergeTargets (g : NodeGraph) (n : Nat) : Except Error (List Nat) :=
  match (g.node n).content with
  | .map _ => .ok [n]
  | .seq items => if items.all g.isMap then .ok items.reverse else fail .mergeTarget
  | .scalar _ => fail .mergeTarget

/-- The entries of a map with those it merges in front. A map that merges itself takes in what it
holds from there on. `inside` holds the maps around one that is merged; of these only the own
entries count. -/
def mergedEntries (g : NodeGraph) : (budget : Nat) → (inside : List Nat) → Nat →
    Except Error (List (Nat × Nat))
  | 0, _, _ => .ok []
  | budget + 1, inside, n =>
    match (g.node n).content with
    | .map entries => do
      let (merges, own) := entries.partition fun e => (g.node e.1).tag == .merge
      if n ∈ inside then return own
      else
        let merged ← merges.mapM fun e => do
          if e.2 = n then return none
          let parts ← (← g.mergeTargets e.2).mapM (g.mergedEntries budget (n :: inside))
          return some parts.flatten
        return merged.foldr (fun part after => part.getD after ++ after) own
    | _ => fail .wrongNodeKind

def entries (g : NodeGraph) (n : Nat) : Except Error (List (Nat × Nat)) :=
  g.mergedEntries (g.size + 1) [] n

def pairs (g : NodeGraph) (n : Nat) : Except Error (List (Nat × Nat)) :=
  match (g.node n).content with
  | .seq items => items.mapM fun m => match (g.node m).content with
    | .map [entry] => .ok entry
    | _ => fail .wrongNodeKind
  | _ => fail .wrongNodeKind

def items (g : NodeGraph) (n : Nat) : Except Error (List Nat) :=
  match (g.node n).content with
  | .seq items => .ok items
  | _ => fail .wrongNodeKind

def checkNode (g : NodeGraph) (tag : Tag) (n : Nat) : Except Error Unit :=
  if tag.isCollection then .ok () else (g.scalar tag n).map fun _ => ()

def checkKey (g : NodeGraph) (n : Nat) : Except Error Unit :=
  if (g.keyTag n).isCollection then fail .unhashableKey else g.checkNode (g.keyTag n) n

/-- Check what stands directly in a collection; the result is the nodes in it. -/
def checkInside (g : NodeGraph) (n : Nat) : Except Error (List Nat) := do
  let node := fun m => g.checkNode (g.node m).tag m
  match (g.node n).tag with
  | .map | .set =>
    let es ← g.entries n
    es.forM fun e => do g.checkKey e.1; node e.2
    return es.map (·.2)
  | .omap | .pairs =>
    let es ← g.pairs n
    es.forM fun e => do node e.1; node e.2
    return es.flatMap fun e => [e.1, e.2]
  | .seq =>
    let ms ← g.items n
    ms.forM node
    return ms
  | _ => return []

/-- Check the waiting collections, then those found in them, each once. -/
def checkAll (g : NodeGraph) : (budget : Nat) → (waiting done : List Nat) → Except Error Unit
  | 0, _, _ => .ok ()
  | budget + 1, waiting, done =>
    match waiting with
    | [] => .ok ()
    | n :: rest =>
      if n ∈ done then checkAll g budget rest done
      else do
        let found ← g.checkInside n
        let collections := found.filter fun m => (g.node m).tag.isCollection && !done.contains m
        checkAll g budget (rest ++ collections) (n :: done)

def parts (g : NodeGraph) (n : Nat) : List Nat :=
  match g.checkInside n with
  | .ok ms => ms
  | .error _ => []

def reach (g : NodeGraph) : (budget : Nat) → (waiting done : List Nat) → List Nat
  | 0, _, done => done
  | budget + 1, waiting, done =>
    match waiting with
    | [] => done
    | n :: rest =>
      if n ∈ done then reach g budget rest done else reach g budget (g.parts n ++ rest) (n :: done)

def steps (g : NodeGraph) : Nat :=
  (List.range g.size).foldl (fun total n => total + (g.parts n).length + 1) 1

def cycles (g : NodeGraph) : List Nat :=
  if g.cyclic then
    (List.range g.size).filter fun n => (g.reach g.steps (g.parts n) []).contains n
  else []

def scalarOr (g : NodeGraph) (tag : Tag) (n : Nat) : Scalar :=
  match g.scalar tag n with
  | .ok s => s
  | .error _ => .null

def valueFrom (g : NodeGraph) (value : Nat → Value) (n : Nat) : Value :=
  let orNone := fun {α : Type} (r : Except Error (List α)) => match r with
    | .ok xs => xs
    | .error _ => []
  let entry := fun (e : Nat × Nat) => (g.scalarOr (g.keyTag e.1) e.1, value e.2)
  match (g.node n).tag with
  | .map => .map (Entries.ofPairs ((orNone (g.entries n)).map entry))
  | .set => .set ((Entries.ofPairs ((orNone (g.entries n)).map entry)).map (·.1))
  | .omap | .pairs => .seq ((orNone (g.pairs n)).map fun e => .pair (value e.1) (value e.2))
  | .seq => .seq ((orNone (g.items n)).map value)
  | t => .scalar (g.scalarOr t n)

/-- The nodes that the waiting ones need, latest first, each after the nodes that its value is made
of. Nodes in `known` need nothing. A node waits once more, marked, while the nodes in it are
ordered. -/
def orderFrom (g : NodeGraph) (known : List Nat) : (budget : Nat) → (waiting : List (Nat × Bool)) →
    (done : List Nat) → List Nat
  | 0, _, done => done
  | _ + 1, [], done => done
  | budget + 1, (n, ordered) :: rest, done =>
    if ordered then orderFrom g known budget rest (n :: done)
    else if n ∈ known ∨ n ∈ done then orderFrom g known budget rest done
    else
      let parts := (g.parts n).map fun m => (m, false)
      orderFrom g known budget (parts ++ (n, true) :: rest) done

/-- An order in which every node comes after those in it, but for the collections in themselves. -/
def order (g : NodeGraph) (cycles : List Nat) : List Nat :=
  if g.cyclic then
    let waiting := (g.root :: cycles.flatMap g.parts).map fun n => (n, false)
    (g.orderFrom cycles (2 * g.steps + waiting.length + 1) waiting []).reverse
  else g.completed.toList

def document (room : Nat) (g : NodeGraph) : Document :=
  let cycles := g.cycles
  let blank := Array.replicate g.size Value.null
  let links := cycles.zipIdx.foldl (fun (known : Array Value) (n, cell) =>
    known.setIfInBounds n (.link cell)) blank
  let known := (g.order cycles).foldl (fun (known : Array Value) n =>
    known.setIfInBounds n (g.valueFrom (fun m => known.getD m .null) n)) links
  let value := fun n => known.getD n .null
  ⟨value g.root, ⟨(cycles.map (g.valueFrom value)).toArray, room⟩⟩

def read (room : Nat) (g : NodeGraph) : Except Error Document := do
  g.checkNode (g.node g.root).tag g.root
  g.checkAll (g.steps + 1) [g.root] []
  return g.document room

end NodeGraph

/-- The document in a text; a text without one holds null. -/
def readChars (room : Nat) (text : List Char) : Except Error Document := do
  match ← NodeGraph.ofText room text with
  | none => return .ofTreeIn room .null
  | some g => g.read room

def read (room : Nat) (text : String) : Except Error Document := readChars room text.toList

end OpenApiIR.Yaml
