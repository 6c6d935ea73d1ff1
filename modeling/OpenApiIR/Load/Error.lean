import OpenApiIR.Failure
import OpenApiIR.Json.Fault

/-! Why a document cannot be loaded. Each error carries the source that was asked for. -/

namespace OpenApiIR

inductive LoadFault where
  | notFound
  | unreadable (e : Text.Utf8Error)
  | emptyFile
  | inputFailed (reason : String)
  | emptyInput
  | network (reason : String)
  | status (code : Int)
  | invalidJson (e : Json.Error)
  /-- Neither format fits; JSON may not have been tried. -/
  | undecodable (json : Option Json.Error) (yaml : Yaml.Fault)
  /-- The kind of the value that is no map. -/
  | notObject (kind : String)
  deriving DecidableEq, Repr

structure LoadError where
  source : String
  fault : LoadFault
  deriving DecidableEq, Repr

namespace LoadError

/-- The source as messages call it; a text of no source is called a document. -/
def called (e : LoadError) : String := if e.source = "" then "document" else e.source

def jsonLine : Option Json.Error → String
  | none => ""
  | some e => "\n  JSON error: " ++ e.message

def message (e : LoadError) : String :=
  match e.fault with
  | .notFound => "Spec file not found: " ++ e.source
  | .unreadable u => "Failed to read spec file " ++ e.source ++ ": " ++ u.message
  | .emptyFile => "Spec file is empty: " ++ e.source
  | .inputFailed reason => "Failed to read from stdin: " ++ reason
  | .emptyInput => "No input received from stdin"
  | .network reason => "Failed to fetch spec from " ++ e.source ++ ": " ++ reason
  | .status code => "HTTP " ++ toString code ++ " fetching spec from " ++ e.source
  | .invalidJson j => "Invalid JSON in " ++ e.called ++ ": " ++ j.message
  | .undecodable json yaml => "Failed to parse " ++ e.called ++ " as JSON or YAML" ++
    jsonLine json ++
      "\n  YAML error: " ++ yaml.description
  | .notObject kind => "Spec must be a JSON/YAML object (got " ++ kind ++ ")"

def exitCode : Nat := 7

end LoadError

end OpenApiIR
