import OpenApiIR.Json.Reader
import OpenApiIR.Load.Error
import OpenApiIR.Yaml.Reader

/-! From text to a document. JSON is tried first and YAML next; a hint leaves one of them out. -/

namespace OpenApiIR

inductive FormatHint where
  | either
  | json
  | yaml
  deriving DecidableEq, Repr

abbrev Loaded := Except (Failure LoadError) Document

namespace Load

def refuse {α : Type} (source : String) (fault : LoadFault) : Except (Failure LoadError) α :=
  .error (.reported ⟨source, fault⟩)

def requireMap (source : String) (d : Document) : Loaded :=
  if d.graph.isMap d.root then .ok d
  else
    let kind := d.graph.kindName d.root
    refuse source (.notObject (if kind = Scalar.kindName .null then "empty document" else kind))

/-- A reader of YAML. Only the faults of the format are told to the user. -/
abbrev YamlReader := String → Except (Failure Yaml.Fault) Document

def readYaml (room : Nat) : YamlReader := fun text =>
  (Yaml.read room text).mapError fun
    | .fault f => .reported f
    | .misfit (.limit l) => .unforeseen (.limit l)
    | .misfit m => .unforeseen (.misfit m)

def decodeYaml (yaml : YamlReader) (source text : String) (json : Option Json.Error) : Loaded :=
  match yaml text with
  | .ok d => requireMap source d
  | .error (.reported f) => refuse source (.undecodable json f)
  | .error (.unforeseen x) => .error (.unforeseen x)

/-- Decode a text, with the reader of YAML left open. JSON that goes beyond a limit has not failed,
so the reader is not asked. -/
def decodeWith (yaml : YamlReader) (room : Nat) (hint : FormatHint) (source text : String) :
    Loaded :=
  match hint with
  | .yaml => decodeYaml yaml source text none
  | _ => match Json.read room text with
    | .ok v => requireMap source (.ofTreeIn room v)
    | .error (.limit l) => .error (.unforeseen (.limit l))
    | .error (.error e) =>
      if hint = .json then refuse source (.invalidJson e)
      else decodeYaml yaml source text (some e)

abbrev Decoder := FormatHint → (source text : String) → Loaded

def decode (room : Nat) : Decoder := decodeWith (readYaml room) room

end Load

end OpenApiIR
