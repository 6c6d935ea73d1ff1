import OpenApiIR.Load.Source
import OpenApiIR.Settings.Basic

/-! Layers of settings: the project file over the standard values, the environment over the project
file, and the command line over all. -/

namespace OpenApiIR

inductive ConfigError where
  | invalidJson (place : String) (e : Json.Error)
  | notObject (place : String)
  | invalid (refusals : List Refusal)
  deriving DecidableEq, Repr

namespace ConfigError

def message : ConfigError → String
  | .invalidJson place e => "Invalid project config at " ++ place ++ ": " ++ e.message
  | .notObject place => "Invalid project config at " ++ place ++ ": expected a JSON object"
  | .invalid refusals => "Invalid settings: " ++ Text.join ", " (refusals.map (·.text))

def exitCode : Nat := 1

end ConfigError

/-- The variables of the environment, each at most once. -/
abbrev Variables := List (String × String)

namespace Variables

def get? (vs : Variables) (name : String) : Option String := (vs.find? (·.1 = name)).map (·.2)

def nonEmpty? (vs : Variables) (name : String) : Option String := (vs.get? name).filter (· ≠ "")

end Variables

namespace ProjectFile

def name : String := "oasir.json"

def parse (room : Nat) (place text : String) : Except (Failure ConfigError) Entries :=
  match Json.read room text with
  | .error (.error e) => .error (.reported (.invalidJson place e))
  | .error (.limit l) => .error (.unforeseen (.limit l))
  | .ok (.map es) => .ok es
  | .ok _ => .error (.reported (.notObject place))

def read (room : Nat) (directory : String) (files : FileTree) :
    Except (Failure ConfigError) (Option Entries) :=
  match files.content? (.ofText name) with
  | .error e => .error (.unforeseen (.file e))
  | .ok none => .ok none
  | .ok (some bytes) => match Load.fileText bytes with
    | .error e => .error (.unforeseen (.undecodable e))
    | .ok text => (parse room ((Path.ofText directory).child name).text text).map some

end ProjectFile

namespace Settings

def timeoutVariable : String := "OASIR_TIMEOUT"

def mediaTypeVariable : String := "OASIR_MEDIA_TYPE"

structure Overrides where
  timeout : Option Value
  mediaType : Option Value

def Overrides.none : Overrides := ⟨.none, .none⟩

def lay (setting : Setting) (value : Option Value) (below : Entries) : Entries :=
  match value with
  | some v => below.put (.str setting.name) v
  | none => below

def layered (project : Entries) (vars : Variables) (overrides : Overrides) : Entries :=
  let environment := project
    |> lay .timeout ((vars.nonEmpty? timeoutVariable).map .str)
    |> lay .mediaType ((vars.nonEmpty? mediaTypeVariable).map .str)
  environment |> lay .timeout overrides.timeout |> lay .mediaType overrides.mediaType

def resolve (room : Nat) (directory : String) (files : FileTree) (vars : Variables)
    (overrides : Overrides) : Except (Failure ConfigError) Settings :=
  match ProjectFile.read room directory files with
  | .error e => .error e
  | .ok project => match ofEntries (layered (project.getD []) vars overrides) with
    | .error refusals => .error (.reported (.invalid refusals))
    | .ok s => .ok s

end Settings

end OpenApiIR
