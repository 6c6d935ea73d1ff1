import OpenApiIR.Document.Value
import OpenApiIR.IR.Basic

/-! Resolved documents as plain data, ready to be written. Every field is there, in a fixed order.
-/

namespace OpenApiIR

namespace Value

def record (fields : List (String × Value)) : Value := .map (fields.map fun (k, v) => (.str k, v))

def texts (ss : List String) : Value := .seq (ss.map .str)

def optional {α : Type} (encode : α → Value) : Option α → Value
  | none => .null
  | some a => encode a

end Value

def TypeRef.encode : TypeRef → Value
  | ⟨kind, nullable, item, refName⟩ => .record [
      ("kind", .str kind.name), ("nullable", .bool nullable),
      ("item", match item with
        | none => .null
        | some t => t.encode),
      ("ref_name", .optional .str refName)]

def Property.encode (p : Property) : Value := .record [
  ("name", .str p.name), ("resolved_type", p.type.encode), ("is_required", .bool p.isRequired),
  ("description", .str p.description)]

def Model.encode (m : Model) : Value := .record [
  ("name", .str m.name), ("properties", .seq (m.properties.map (·.encode))),
  ("description", .str m.description)]

def Parameter.encode (p : Parameter) : Value := .record [
  ("name", .str p.name), ("location", .str p.location.name), ("resolved_type", p.type.encode),
  ("is_required", .bool p.isRequired), ("description", .str p.description)]

def RequestBody.encode (b : RequestBody) : Value := .record [
  ("resolved_type", b.type.encode), ("is_required", .bool b.isRequired),
  ("description", .str b.description), ("content_types", .texts b.contentTypes)]

def Response.encode (r : Response) : Value := .record [
  ("status_code", .str r.statusCode), ("resolved_type", r.type.encode),
  ("description", .str r.description)]

def ResponseMap.encode (rs : ResponseMap) : Value :=
  .map (rs.map fun (k, r) => (.str k, r.encode))

def Endpoint.encodeWith (responses : ResponseMap → Value) (e : Endpoint) : Value := .record [
  ("path", .str e.path), ("method", .str e.method.name),
    ("operation_id", .optional .str e.operationId),
  ("summary", .str e.summary), ("description", .str e.description), ("tags", .texts e.tags),
  ("parameters", .seq (e.parameters.map (·.encode))),
  ("request_body", .optional RequestBody.encode e.requestBody),
    ("responses", responses e.responses),
  ("deprecated", .bool e.deprecated)]

def Endpoint.encode (e : Endpoint) : Value := e.encodeWith ResponseMap.encode

def Diagnostic.encode (d : Diagnostic) : Value := .record [
  ("kind", .str d.kind.name), ("subject", .str d.subject), ("message", .str d.message),
  ("severity", .str d.severity)]

def ApiInfo.encode (i : ApiInfo) : Value := .record [
  ("title", .str i.title), ("version", .str i.version),
    ("description", .optional .str i.description)]

def IR.encodeWith (responses : ResponseMap → Value) (ir : IR) : Value := .record [
  ("openapi_version", .optional .str ir.openapiVersion), ("info", ir.info.encode),
  ("models", .seq (ir.models.map (·.encode))),
  ("endpoints", .seq (ir.endpoints.map (·.encodeWith responses))),
  ("diagnostics", .seq (ir.diagnostics.map (·.encode)))]

def IR.encode (ir : IR) : Value := ir.encodeWith ResponseMap.encode

end OpenApiIR
