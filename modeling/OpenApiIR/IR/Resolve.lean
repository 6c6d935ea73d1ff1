import OpenApiIR.Operation.Endpoint
import OpenApiIR.Schema.Model

/-! From documents to resolved documents. Every entry is resolved on its own, and what cannot be
resolved becomes a diagnostic. A document that is no map is refused; a limit of the runtime that is
met between the entries breaks the resolution off. -/

namespace OpenApiIR

namespace IR

def checkVersion (g : Graph) (es : Entries) : Except VersionError String :=
  match es.value? (.str "swagger") with
  | some v => match g.shown v with
    | .ok version => .error (.swagger version)
    | .error l => .error (.limit l)
  | none =>
    let declared := es.field "openapi"
    if declared.isNull then .error .missing
    else match g.shown declared with
      | .ok version =>
        if "3.".toList.isPrefixOf version.toList then .ok version else .error (.unsupported version)
      | .error l => .error (.limit l)

/-- The declared version, whatever it is. One that is not accepted is noted before it is shown. -/
def resolveVersion (g : Graph) (es : Entries) : Report (Option String) :=
  let declared := es.field "openapi"
  match checkVersion g es with
  | .ok version => .silent (some version)
  | .error (.limit l) => .halting l none
  | .error e => do
    Report.noting .document "openapi" (.version e) ()
    .showing (g.limit? declared)
      (.silent (if declared.isNull then none else some (g.text declared)))

/-- A map below a key; an absent one is empty, and so, with a diagnostic, is a malformed one. -/
def sectionOf (g : Graph) (es : Entries) (key subject : String) : Report Entries :=
  match g.view (es.field key) with
  | .null => .silent []
  | .map inner => .silent inner
  | v => .noting .document subject (.malformedSection (g.kindName v)) []

def resolveModels (g : Graph) (es : Entries) : Report (List Model) := do
  let components ← sectionOf g es "components" "components"
  let schemas ← sectionOf g components "schemas" "components.schemas"
  .gather (Schema.modelEntry g) schemas

def resolveEndpoints (sc : Scope) (mediaType : String) (es : Entries) : Report (List Endpoint) := do
  let paths ← sectionOf sc.graph es "paths" "paths"
  .gather (Endpoint.pathEntry sc mediaType) paths

def resolveInfo (g : Graph) (es : Entries) : ApiInfo :=
  match g.entries? (es.field "info") with
  | none => .untitled
  | some info =>
    let title := (info.field "title").asText
    let version := info.field "version"
    { title := if title = "" then ApiInfo.untitled.title else title
      version := if version.isNull then ApiInfo.untitled.version else g.text version
      description := (info.field "description").str? }

def infoLimit? (g : Graph) (es : Entries) : Option Limit :=
  (g.entries? (es.field "info")).bind fun info => g.limit? (info.field "version")

def summaryLogger : String := "oasir.parser.document"

def summary (models : List Model) (endpoints : List Endpoint) (diagnostics : List Diagnostic) :
    LogRecord :=
  ⟨.debug, summaryLogger, "Resolved " ++ toString models.length ++ " models and " ++
    toString endpoints.length ++ " endpoints with " ++ toString diagnostics.length ++
      " diagnostics"⟩

def resolveParts (d : Document) (mediaType : String) (es : Entries) :
    Report (Option String × List Model × List Endpoint) := do
  let version ← resolveVersion d.graph es
  let models ← resolveModels d.graph es
  let endpoints ← resolveEndpoints d.scope mediaType es
  return (version, models, endpoints)

def resolveEntries (d : Document) (mediaType : String) (es : Entries) : IR × List LogRecord :=
  let ⟨(openapiVersion, models, endpoints), trace⟩ := resolveParts d mediaType es
  let diagnostics := trace.diagnostics
  ({ openapiVersion, models, endpoints, diagnostics, info := resolveInfo d.graph es },
    trace.log ++ [summary models endpoints diagnostics])

/-- Why there is no resolved document: another kind of value stands in place of a map, or a limit of
the runtime is met outside of every handler, after some records were logged. -/
inductive Refusal where
  | notMap (kind : String)
  | limit (l : Limit) (log : List LogRecord)
  deriving DecidableEq, Repr

/-- Resolve a document. The version of the `info` is shown last. -/
def resolveWithLog (d : Document) (mediaType : String) : Except Refusal (IR × List LogRecord) :=
  match d.graph.entries? d.root with
  | none => .error (.notMap (d.graph.kindName d.root))
  | some es =>
    let parts := (resolveParts d mediaType es).trace
    match parts.halt?, infoLimit? d.graph es with
    | some l, _ => .error (.limit l parts.reached.log)
    | none, some l => .error (.limit l (resolveEntries d mediaType es).2)
    | none, none => .ok (resolveEntries d mediaType es)

def resolve (d : Document) (mediaType : String) : Except Refusal IR :=
  (resolveWithLog d mediaType).map (·.1)

end IR

end OpenApiIR
