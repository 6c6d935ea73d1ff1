import OpenApiIR.Ref.Pointer

/-! Chains of references. A map with a `$ref` stands for what the reference leads to, which may be a
reference again. -/

namespace OpenApiIR

/-- What references are resolved against: the root of the document, where there is one, and the
collections that links name. -/
structure Scope where
  root : Option Value
  graph : Graph

def Document.scope (d : Document) : Scope := ⟨some d.root, d.graph⟩

@[simp] theorem Document.graph_scope (d : Document) : d.scope.graph = d.graph := rfl

namespace Scope

def refOf? (sc : Scope) (v : Value) : Option Value :=
  (sc.graph.entries? v).bind fun es => es.value? (.str "$ref")

def start (sc : Scope) (ref : Value) : Except RefError (String × Value) :=
  match ref with
  | .str text => match sc.root with
    | none => .error (.noDocument text)
    | some root => .ok (text, root)
  | other => .error (.notText (sc.graph.kindName other))

/-- Follow references until a value is none. `seen` holds the references followed so far; one that
comes back would be followed forever. -/
def chase (sc : Scope) : (budget : Nat) → (seen : List String) → Value → Except RefError Value
  | 0, _, v => .ok v
  | budget + 1, seen, v =>
    match sc.refOf? v with
    | none => .ok v
    | some ref => do
      let (text, root) ← sc.start ref
      if text ∈ seen then throw (.circular text)
      else
        let next ← Pointer.resolve sc.graph root text
        chase sc budget (text :: seen) next

mutual

def refTexts : Value → List String
  | .scalar _ | .set _ | .link _ => []
  | .seq items => refTextsOfItems items
  | .pair v w => refTexts v ++ refTexts w
  | .map entries => refTextsOfEntries entries

def refTextsOfItems : List Value → List String
  | [] => []
  | v :: rest => refTexts v ++ refTextsOfItems rest

def refTextsOfEntries : List (Scalar × Value) → List String
  | [] => []
  | (k, v) :: rest =>
    (match k, v with
      | .str "$ref", .str text => [text]
      | _, _ => []) ++ refTexts v ++ refTextsOfEntries rest

end

def reachableRefs (sc : Scope) (v : Value) : List String :=
  refTexts v ++ (sc.root.map refTexts).getD [] ++ sc.graph.cells.toList.flatMap refTexts

/-- What a value stands for once its references are followed. A chain that ends never meets a
reference twice, so the number of references bounds the steps. -/
def follow (sc : Scope) (v : Value) : Except RefError Value :=
  match sc.refOf? v with
  | none => .ok v
  | some _ => sc.chase ((sc.reachableRefs v).length + 2) [] v

end Scope

end OpenApiIR
