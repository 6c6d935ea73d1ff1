import OpenApiIR.Document.Value
import OpenApiIR.Ref.Pointer
import OpenApiIR.Schema.TypeRef

/-! From schema fragments to types. A fragment has one shape, and each shape one rule. A type is
nullable as soon as one sign in the fragment says so. Fragments that no rule understands, and those
nested too deeply, have the type `any`. -/

namespace OpenApiIR

/-- The shapes, strongest first: a reference hides everything beside it, and a union hides a type.
-/
inductive Shape where
  | ref
  | union
  | typeArray
  | scalar
  | unknown
  deriving DecidableEq, Repr

namespace Shape

def name : Shape → String
  | .ref => "ref"
  | .union => "union"
  | .typeArray => "type_array"
  | .scalar => "scalar"
  | .unknown => "unknown"

def scalarWords : List String := ["string", "integer", "number", "boolean", "array", "object"]

def ofEntries (g : Graph) (es : Entries) : Shape :=
  if es.declares "$ref" then .ref
  else if es.declares "anyOf" || es.declares "oneOf" then .union
  else match g.view (es.field "type") with
    | .seq _ => .typeArray
    | .str word => if word ∈ scalarWords then .scalar else .unknown
    | _ => .unknown

def ofValue (g : Graph) (v : Value) : Shape :=
  match g.entries? v with
  | some es => ofEntries g es
  | none => .unknown

end Shape

namespace Schema

/-- The members of a union: `anyOf`, or `oneOf` where that is absent or null. -/
def unionMembers? (g : Graph) (es : Entries) : Option (List Value) :=
  let anyOf := es.field "anyOf"
  g.items? (if anyOf.isNull then es.field "oneOf" else anyOf)

def mapMembers (g : Graph) (members : List Value) : List (Value × Entries) :=
  members.filterMap fun v => (g.entries? v).map (v, ·)

def hasType (es : Entries) (word : String) : Bool := (es.field "type").str? == some word

theorem hasType_iff (es : Entries) (word : String) :
    hasType es word = true ↔ es.field "type" = .str word := by
  unfold hasType Value.str?
  split <;> simp_all

def admitsNull (members : List (Value × Entries)) : Bool := members.any (hasType ·.2 "null")

/-- The member that gives a union its type: the first that is neither null nor an object, else the
first that is not null. -/
def primary? (members : List (Value × Entries)) : Option Value :=
  let candidates := members.filter fun m => !hasType m.2 "null"
  ((candidates.find? fun m => !hasType m.2 "object").or candidates.head?).map (·.1)

def unionType (g : Graph) (inner : Value → TypeRef) (es : Entries) : TypeRef :=
  match unionMembers? g es with
  | none => .any
  | some members =>
    let members := mapMembers g members
    match primary? members with
    | none => TypeRef.any.orNullable (admitsNull members)
    | some v => (inner v).orNullable (admitsNull members)

def wordType (word : String) : TypeRef :=
  if word = "string" then .string
  else if word = "integer" then .int
  else if word = "number" then .double
  else if word = "boolean" then .bool
  else if word = "array" then .listOf .any
  else if word = "object" then .mapOf .any
  else .any

/-- The first word other than `null` decides. -/
def typeArrayType (words : List Value) : TypeRef :=
  let texts := words.filterMap Value.str?
  let base := match texts.find? (· ≠ "null") with
    | some word => wordType word
    | none => .any
  base.orNullable (texts.contains "null")

def isTimeFormat (v : Value) : Bool := v.str? == some "date-time" || v.str? == some "date"

def scalarType (g : Graph) (inner : Value → TypeRef) (es : Entries) (word : String) : TypeRef :=
  let part := fun key => if g.isMap (es.field key) then inner (es.field key) else .any
  if word = "string" then if isTimeFormat (es.field "format") then .datetime else .string
  else if word = "array" then .listOf (part "items")
  else if word = "object" then .mapOf (part "additionalProperties")
  else wordType word

def bareType (g : Graph) (inner : Value → TypeRef) (es : Entries) : TypeRef :=
  if es.declares "anyOf" || es.declares "oneOf" then unionType g inner es
  else match g.view (es.field "type") with
    | .seq words => typeArrayType words
    | .str word => if word ∈ Shape.scalarWords then scalarType g inner es word else .any
    | _ => .any

def refType (ref : Value) : TypeRef :=
  match ref with
  | .str text => match Pointer.schemaName? text with
    | some name => .model name
    | none => .any
  | _ => .any

/-- One step of the resolution; `inner` resolves the fragments inside. -/
def stepType (g : Graph) (inner : Value → TypeRef) (v : Value) : TypeRef :=
  match g.entries? v with
  | none => .any
  | some es =>
    match es.value? (.str "$ref") with
    | some ref => refType ref
    | none => (bareType g inner es).orNullable (es.field "nullable").isTrue

def typeWithin (g : Graph) : (levels : Nat) → Value → TypeRef
  | 0, _ => .any
  | levels + 1, v => stepType g (typeWithin g levels) v

/-- Fragments are read down to this depth; the outermost one has depth zero. -/
def depthLimit : Nat := 64

def typeOf (g : Graph) (v : Value) : TypeRef := typeWithin g (depthLimit + 1) v

end Schema

end OpenApiIR
