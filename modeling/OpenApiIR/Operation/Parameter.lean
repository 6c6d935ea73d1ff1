import OpenApiIR.Diagnostic.Report
import OpenApiIR.Document.Literal
import OpenApiIR.IR.Basic
import OpenApiIR.Ref.Chain
import OpenApiIR.Schema.Resolve

/-! Parameters of operations. The parameters of a path item hold for all its operations, unless an
operation has one of the same name and location. -/

namespace OpenApiIR

namespace Parameter

/-- What a parameter is known by; what is missing or no text counts as empty. -/
def identity (es : Entries) : String × String := ((es.field "name").asText, (es.field "in").asText)

def merge (shared own : List Entries) : List Entries :=
  let taken := own.map identity
  shared.filter (fun es => !taken.contains (identity es)) ++ own

def targetEntry (sc : Scope) (subject : String) (entry : Value) : Report (List Entries) :=
  match sc.follow entry with
  | .error e => .refusing .parameter subject e []
  | .ok target => match sc.graph.entries? target with
    | some es => .silent [es]
    | none => .noting .parameter subject
        (.notObject "parameter" (sc.graph.kindName target)) []

def targets (sc : Scope) (subject : String) (entries : Value) : Report (List Entries) :=
  match sc.graph.view entries with
  | .null => .silent []
  | .seq items => .gather (targetEntry sc subject) items
  | v => .noting .parameter subject (.notList "'parameters'" (sc.graph.kindName v)) []

/-- A parameter in the path is always required; one that is not required is nullable. -/
def resolve (g : Graph) (es : Entries) : Except Problem Parameter :=
  let name := (es.field "name").asText
  if name = "" then .error .parameterWithoutName
  else match (es.field "in").str?.bind Location.ofName? with
    | none => match g.limit? (es.field "in") with
      | some l => .error (.limit l)
      | none => .error (.unknownLocation name (g.literal (es.field "in")))
    | some location =>
      if g.isMap (es.field "schema") then
        let isRequired := (es.field "required").isTrue || location == .path
        .ok {
          name, location, isRequired
          type := (Schema.typeOf g (es.field "schema")).orNullable !isRequired
          description := (es.field "description").asText }
      else .error (.parameterWithoutSchema name)

/-- What one of the merged parameters contributes. A value nested too deeply to be shown is no error
of the value, so it is not handled here. -/
def mergedEntry (g : Graph) (subject : String) (es : Entries) : Report (List Parameter) :=
  match resolve g es with
  | .ok p => .silent [p]
  | .error (.limit .depth) => .halting .depth []
  | .error problem => .noting .parameter subject problem []

def resolveAll (sc : Scope) (subject : String) (shared own : Value) : Report (List Parameter) := do
  let shared ← targets sc subject shared
  let own ← targets sc subject own
  .gather (mergedEntry sc.graph subject) (merge shared own)

end Parameter

end OpenApiIR
