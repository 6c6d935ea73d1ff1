import OpenApiIR.Operation.Body
import OpenApiIR.Operation.Parameter

/-! Endpoints: one operation of one path. Its parameters, body and responses are resolved each on
its own, so that none of them can spoil the endpoint, unless a limit of the runtime is met that no
handler of theirs is made for. -/

namespace OpenApiIR

namespace Endpoint

def subject (path : String) (method : Method) : String := method.name ++ " " ++ path

def tagsOf (g : Graph) (v : Value) : List String := ((g.items? v).getD []).filterMap Value.str?

def resolve (sc : Scope) (mediaType path : String) (method : Method) (operation shared : Value) :
    Except Problem (Report Endpoint) :=
  match sc.graph.entries? operation with
  | none => .error (.notObject "operation" (sc.graph.kindName operation))
  | some es =>
    let subject := subject path method
    .ok do
      let parameters ← Parameter.resolveAll sc subject shared (es.field "parameters")
      let requestBody ← RequestBody.resolveOrNote sc mediaType subject (es.field "requestBody")
      let responses ← Response.resolveAll sc mediaType subject (es.field "responses")
      return {
        path, method, parameters, requestBody, responses
        operationId := (es.field "operationId").str?
        summary := (es.field "summary").asText
        description := (es.field "description").asText
        tags := tagsOf sc.graph (es.field "tags")
        deprecated := (es.field "deprecated").isTrue }

/-- Like `resolve`, for a method given by name, and without a handler for the limits. -/
def resolveNamed (sc : Scope) (mediaType path method : String) (operation shared : Value) :
    Except Problem (Report Endpoint) :=
  match Method.ofName? method with
  | none => .error (.unknownMethod (Text.upper method))
  | some m => do
    let endpoint ← resolve sc mediaType path m operation shared
    match endpoint.trace.halt? with
    | some l => .error (.limit l)
    | none => return endpoint

/-- What one entry of a path item contributes: an endpoint or a diagnostic for a key that names a
method, and nothing for any other key. -/
def itemEntry (sc : Scope) (mediaType path : String) (shared : Value) (entry : Scalar × Value) :
    Report (List Endpoint) :=
  match entry.1 with
  | .str key => match Method.ofKey? key with
    | none => .silent []
    | some method => match resolve sc mediaType path method entry.2 shared with
      | .ok endpoint => endpoint.guarded .endpoint (subject path method)
      | .error problem => .noting .endpoint (subject path method) problem []
  | _ => .silent []

def pathEntry (sc : Scope) (mediaType : String) (entry : Scalar × Value) : Report (List Endpoint) :=
  let path := entry.1.text
  .showing entry.1.limit? <| match sc.follow entry.2 with
    | .error e => .refusing .path path e []
    | .ok item => match sc.graph.entries? item with
      | none => .noting .path path (.notObject "path item" (sc.graph.kindName item)) []
      | some es => .gather (itemEntry sc mediaType path (es.field "parameters")) es

end Endpoint

end OpenApiIR
