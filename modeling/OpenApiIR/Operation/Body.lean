import OpenApiIR.Diagnostic.Report
import OpenApiIR.Document.Literal
import OpenApiIR.IR.Basic
import OpenApiIR.Ref.Chain
import OpenApiIR.Schema.Resolve

/-! Request bodies and responses. Of the media types of a body one gives the type. -/

namespace OpenApiIR

def mediaSchema? (g : Graph) (content : Value) (mediaType : String) : Option Value := do
  let media ← (← g.entries? content).value? (.str mediaType)
  let schema := (← g.entries? media).field "schema"
  if g.isMap schema then some schema else none

def followToMap (sc : Scope) (what : String) (v : Value) : Except Problem Entries :=
  match sc.follow v with
  | .error e => .error (.ref e)
  | .ok target => match sc.graph.entries? target with
    | some es => .ok es
    | none => .error (.notObject what (sc.graph.kindName target))

def declaredTypes (g : Graph) (content : Value) : Except Limit (List String) :=
  let keys := ((g.entries? content).getD []).keys
  match keys.findSome? Scalar.limit? with
  | some l => .error l
  | none => .ok (keys.map Scalar.text)

namespace RequestBody

/-- No body is no error, and one without a schema for the media type counts as none. -/
def resolve (sc : Scope) (mediaType : String) (body : Value) :
    Except Problem (Option RequestBody) :=
  if body.isNull then .ok none
  else do
    let es ← followToMap sc "requestBody" body
    match mediaSchema? sc.graph (es.field "content") mediaType with
    | none => return none
    | some schema => match declaredTypes sc.graph (es.field "content") with
      | .error l => .error (.limit l)
      | .ok contentTypes => return some {
          type := Schema.typeOf sc.graph schema
          isRequired := (es.field "required").isTrue
          description := (es.field "description").asText
          contentTypes }

def resolveOrNote (sc : Scope) (mediaType subject : String) (body : Value) :
    Report (Option RequestBody) :=
  match resolve sc mediaType body with
  | .ok b => .silent b
  | .error problem => .noting .endpoint subject (.within "requestBody" problem) none

end RequestBody

namespace Response

def resolve (sc : Scope) (mediaType status : String) (response : Value) :
    Except Problem Response := do
  let es ← followToMap sc "response" response
  return {
    statusCode := status
    type := match mediaSchema? sc.graph (es.field "content") mediaType with
      | some schema => Schema.typeOf sc.graph schema
      | none => .any
    description := (es.field "description").asText }

/-- What one entry of a map of responses contributes. A response that cannot be read keeps its code,
and the type that its raw value has as a fragment. -/
def entry (sc : Scope) (mediaType subject : String) (e : Scalar × Value) :
    Report (String × Response) :=
  let status := e.1.text
  .showing e.1.limit? <| match resolve sc mediaType status e.2 with
    | .ok r => .silent (status, r)
    | .error problem =>
      .noting .endpoint subject (.within ("response " ++ status) problem)
        (status, ⟨status, Schema.typeOf sc.graph e.2, ""⟩)

def resolveAll (sc : Scope) (mediaType subject : String) (responses : Value) : Report ResponseMap :=
  match sc.graph.view responses with
  | .null => .silent []
  | .map es => (Report.each (entry sc mediaType subject) es).map ResponseMap.ofPairs
  | v => .noting .endpoint subject (.notObject "'responses'" (sc.graph.kindName v)) []

end Response

end OpenApiIR
