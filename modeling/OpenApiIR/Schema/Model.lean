import OpenApiIR.Diagnostic.Report
import OpenApiIR.Document.Literal
import OpenApiIR.IR.Basic
import OpenApiIR.Schema.Resolve

/-! From component schemas to models. Only object-like schemas become models: those of type `object`
and those with a map of properties. A property that is no map is left out with a diagnostic; a
schema of the wrong form gives no model at all. -/

namespace OpenApiIR

namespace Schema

/-- A property that may be absent is nullable, whatever its own schema says. -/
def resolveProperty (g : Graph) (name : String) (fragment : Value) (isRequired : Bool) :
    Property where
  name
  type := (typeOf g fragment).orNullable !isRequired
  isRequired
  description := match g.entries? fragment with
    | some es => (es.field "description").asText
    | none => ""

/-- The name in a list of required names; numbers and truth values count by their text. -/
def requiredName? : Value → Option String
  | .str s => some s
  | .bool b => some (Scalar.bool b).text
  | .int i => some (Scalar.int i).text
  | .float x => some (Scalar.float x).text
  | _ => none

def requiredLimit? : Value → Option Limit
  | .scalar s => s.limit?
  | _ => none

def requiredNames (g : Graph) (es : Entries) : Except Problem (List String) :=
  match g.view (es.field "required") with
  | .null => .ok []
  | .seq items => match items.findSome? requiredLimit? with
    | some l => .error (.limit l)
    | none => .ok (items.filterMap requiredName?)
  | v => .error (.notList "'required'" (g.kindName v))

def propertyEntry (g : Graph) (model : String) (required : List String) (entry : Scalar × Value) :
    Report (List Property) :=
  let name := entry.1.text
  .showing entry.1.limit? <|
    if g.isMap entry.2 then .silent [resolveProperty g name entry.2 (required.contains name)]
    else .noting .property (model ++ "." ++ name)
      (.notObject "property schema" (g.kindName entry.2)) []

/-- The properties of an object-like schema; a schema that is not gives `none`. -/
def propertiesOf? (g : Graph) (es : Entries) : Except Problem (Option Entries) :=
  match g.view (es.field "properties") with
  | .null => .ok (if hasType es "object" then some [] else none)
  | .map properties => .ok (some properties)
  | v => .error (.notObject "'properties'" (g.kindName v))

def resolveModel (g : Graph) (name : String) (fragment : Value) :
    Except Problem (Option (Report Model)) :=
  match g.entries? fragment with
  | none => .error (.notObject "schema" (g.kindName fragment))
  | some es => do
    match ← propertiesOf? g es with
    | none => return none
    | some properties =>
      let required ← requiredNames g es
      let build := fun ps => ⟨name, ps, (es.field "description").asText⟩
      return some ((Report.gather (propertyEntry g name required) properties).map build)

def modelEntry (g : Graph) (entry : Scalar × Value) : Report (List Model) :=
  let name := entry.1.text
  .showing entry.1.limit? <| match resolveModel g name entry.2 with
    | .error problem => .noting .model name problem []
    | .ok none => .silent []
    | .ok (some model) => model.guarded .model name

end Schema

end OpenApiIR
