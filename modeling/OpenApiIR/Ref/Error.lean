import OpenApiIR.Number.Limit

/-! Why a reference cannot be followed. -/

namespace OpenApiIR

inductive RefError where
  | external (ref : String)
  | missingKey (ref segment : String)
  | badIndex (ref segment : String)
  | leaf (ref kind : String)
  | notText (kind : String)
  | noDocument (ref : String)
  | circular (ref : String)
  | limit (l : Limit)
  deriving DecidableEq, Repr

namespace RefError

def cannotResolve (ref : String) : String := "Cannot resolve $ref '" ++ ref ++ "'"

def message : RefError → String
  | .external ref => "External $ref not supported: " ++ ref ++
      ". Only internal references (#/...) are handled."
  | .missingKey ref segment => cannotResolve ref ++ ": key '" ++ segment ++ "' not found at path"
  | .badIndex ref segment => cannotResolve ref ++ ": invalid array index '" ++ segment ++ "'"
  | .leaf ref kind => cannotResolve ref ++ ": cannot navigate into " ++ kind
  | .notText kind => "$ref must be a string, got " ++ kind
  | .noDocument ref => cannotResolve ref ++ " without a document"
  | .circular ref => "Circular $ref '" ++ ref ++ "'"
  | .limit l => l.message

/-- Is the fault in the reference? A limit of the runtime is none. -/
def isResolution : RefError → Bool
  | .limit _ => false
  | _ => true

end RefError

end OpenApiIR
