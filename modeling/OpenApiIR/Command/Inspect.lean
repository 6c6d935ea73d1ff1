import OpenApiIR.Console.Table
import OpenApiIR.IR.Basic

/-! Tables that show what a resolved document holds. -/

namespace OpenApiIR

namespace Inspect

def orDash (text : String) : String := if text = "" then "-" else text

def brief (description : String) : String := String.ofList ((orDash description).toList.take 60)

def modelRow (m : Model) : List String :=
  [m.name, toString m.properties.length, brief m.description]

def models (ir : IR) : Table where
  title := ir.info.title ++ " -- Models (" ++ toString ir.models.length ++ ")"
  headers := ["Model", "Properties", "Description"]
  rows := ir.models.map modelRow

def propertyRow (p : Property) : List String :=
  [p.name, p.type.display, if p.isRequired then "Yes" else "", brief p.description]

def properties (m : Model) : Table where
  title := m.name
  headers := ["Property", "Type", "Required", "Description"]
  rows := m.properties.map propertyRow

def responses (rs : ResponseMap) : String :=
  orDash (Text.join ", " (rs.map fun (code, r) => code ++ ": " ++ r.type.display))

def body : Option RequestBody → String
  | some b => b.type.display
  | none => "-"

def endpointRow (e : Endpoint) : List String :=
  [e.method.name, e.path, orDash (e.operationId.getD ""), body e.requestBody, responses e.responses]

def endpoints (ir : IR) : Table where
  title := ir.info.title ++ " -- Endpoints (" ++ toString ir.endpoints.length ++ ")"
  headers := ["Method", "Path", "Operation", "Body", "Responses"]
  rows := ir.endpoints.map endpointRow

def diagnosticRow (d : Diagnostic) : List String := [d.kind.name, d.subject, d.message]

def diagnostics (ir : IR) : Table where
  title := "Diagnostics (" ++ toString ir.diagnostics.length ++ ")"
  headers := ["Kind", "Subject", "Message"]
  rows := ir.diagnostics.map diagnosticRow

end Inspect

end OpenApiIR
