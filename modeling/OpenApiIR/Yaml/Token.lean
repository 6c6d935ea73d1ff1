/-! The tokens of a YAML text. Indentation has become brackets, and a simple key is announced by a
token of its own. -/

namespace OpenApiIR.Yaml

inductive Directive where
  | version (major minor : Nat)
  | tag (handle stem : String)
  | reserved (name : String)
  deriving DecidableEq, Repr

inductive Token where
  | streamEnd
  | directive (d : Directive)
  | documentStart
  | documentEnd
  | blockSeqStart
  | blockMapStart
  | blockEnd
  | flowSeqStart
  | flowSeqEnd
  | flowMapStart
  | flowMapEnd
  | key
  | value
  | blockEntry
  | flowEntry
  | alias (name : String)
  | anchor (name : String)
  | tag (handle : Option String) (suffix : String)
  | scalar (text : String) (plain : Bool)
  deriving DecidableEq, Repr

end OpenApiIR.Yaml
