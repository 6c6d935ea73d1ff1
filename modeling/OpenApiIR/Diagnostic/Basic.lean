import OpenApiIR.Ref.Error
import OpenApiIR.Text.Quoted

/-! Diagnostics: what was skipped or degraded, where, and why. -/

namespace OpenApiIR

inductive VersionError where
  | swagger (version : String)
  | missing
  | unsupported (version : String)
  | limit (l : Limit)
  deriving DecidableEq, Repr

def VersionError.message : VersionError → String
  | .swagger v => "Swagger " ++ v ++ " is not supported. Only OpenAPI 3.x documents are resolved."
  | .missing => "Missing 'openapi' field. Is this an OpenAPI 3.x document?"
  | .unsupported v => "Unsupported OpenAPI version: " ++ v ++
      ". Only OpenAPI 3.x documents are resolved."
  | .limit l => l.message

inductive Problem where
  | version (e : VersionError)
  | ref (e : RefError)
  | malformedSection (found : String)
  | notObject (what found : String)
  | notList (what found : String)
  | parameterWithoutName
  | unknownLocation (name location : String)
  | parameterWithoutSchema (name : String)
  | unknownMethod (name : String)
  | limit (l : Limit)
  | within (part : String) (inner : Problem)
  deriving DecidableEq, Repr

namespace Problem

def message : Problem → String
  | .version e => e.message
  | .ref e => e.message
  | .malformedSection found => "must be an object, got " ++ found
  | .notObject what found => what ++ " must be an object, got " ++ found
  | .notList what found => what ++ " must be a list, got " ++ found
  | .parameterWithoutName => "parameter has no 'name'"
  | .unknownLocation name location =>
    "parameter '" ++ name ++ "' has unknown location " ++ location
  | .parameterWithoutSchema name => "parameter '" ++ name ++ "' has no schema"
  | .unknownMethod name => Text.quoted name ++ " is not a valid HTTPMethod"
  | .limit l => l.message
  | .within part inner => part ++ ": " ++ inner.message

end Problem

inductive EntryKind where
  | document
  | model
  | property
  | path
  | endpoint
  | parameter
  deriving DecidableEq, Repr

def EntryKind.name : EntryKind → String
  | .document => "document"
  | .model => "model"
  | .property => "property"
  | .path => "path"
  | .endpoint => "endpoint"
  | .parameter => "parameter"

structure Diagnostic where
  kind : EntryKind
  subject : String
  problem : Problem
  deriving DecidableEq, Repr

namespace Diagnostic

def message (d : Diagnostic) : String := d.problem.message

/-- Every diagnostic is a warning: the rest of the document is resolved all the same. -/
def severity (_ : Diagnostic) : String := "warning"

def text (d : Diagnostic) : String := d.kind.name ++ " " ++ d.subject ++ ": " ++ d.message

end Diagnostic

end OpenApiIR
