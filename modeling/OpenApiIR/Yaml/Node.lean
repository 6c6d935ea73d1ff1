import OpenApiIR.Yaml.Token

/-! The node graph of a YAML document. Nodes are numbered, so that an alias is just a second mention
of a node, also of one that it stands in. -/

namespace OpenApiIR.Yaml

inductive Tag where
  | null
  | bool
  | int
  | float
  | binary
  | timestamp
  | omap
  | pairs
  | set
  | str
  | seq
  | map
  | merge
  | value
  | other (name : String)
  deriving DecidableEq, Repr

namespace Tag

def stem : String := "tag:yaml.org,2002:"

def known : List (String × Tag) := [
  ("null", null), ("bool", bool), ("int", int), ("float", float), ("binary", binary),
  ("timestamp", timestamp), ("omap", omap), ("pairs", pairs), ("set", set), ("str", str),
    ("seq", seq),
  ("map", map), ("merge", merge), ("value", value)]

def ofName (name : String) : Tag :=
  match known.find? fun (word, _) => stem ++ word = name with
  | some (_, t) => t
  | none => .other name

/-- Does the tag make a collection, whatever the node holds? -/
def isCollection : Tag → Bool
  | .omap | .pairs | .set | .seq | .map => true
  | _ => false

end Tag

inductive Content where
  | scalar (text : String)
  | seq (items : List Nat)
  | map (entries : List (Nat × Nat))
  deriving Repr

structure Node where
  tag : Tag
  content : Content
  deriving Repr

/-- Nodes under their numbers, the root of the document, and the order in which the nodes were
completed. Unless the document contains itself, a node is completed after everything in it. -/
structure NodeGraph where
  nodes : Array Node
  root : Nat
  completed : Array Nat
  /-- Does a node stand in itself? -/
  cyclic : Bool

def NodeGraph.node (g : NodeGraph) (n : Nat) : Node := g.nodes.getD n ⟨.null, .scalar ""⟩

end OpenApiIR.Yaml
