import OpenApiIR.File.Tree
import OpenApiIR.Number.Limit
import OpenApiIR.Text.Utf8
import OpenApiIR.Yaml.Fault

/-! How a step can fail: by an error that is told to the user, or by a defect, a state of affairs
that the step has no answer for. -/

namespace OpenApiIR

instance decidableEqExcept {ε α : Type} [DecidableEq ε] [DecidableEq α] : DecidableEq (Except ε α)
  | .ok a, .ok b => decidable_of_iff (a = b) ⟨congrArg Except.ok, Except.ok.inj⟩
  | .error a, .error b => decidable_of_iff (a = b) ⟨congrArg Except.error, Except.error.inj⟩
  | .ok _, .error _ => isFalse nofun
  | .error _, .ok _ => isFalse nofun

inductive Defect where
  | undecodable (e : Text.Utf8Error)
  | misfit (m : Yaml.Misfit)
  | file (e : FileError)
  | limit (l : Limit)
  /-- A text for a stream or a file that has no bytes. -/
  | unencodable
  /-- Whatever else a part fails in that is not modelled, under its name. -/
  | foreign (what : String)
  deriving DecidableEq, Repr

inductive Failure (ε : Type) where
  | reported (e : ε)
  | unforeseen (d : Defect)
  deriving DecidableEq, Repr

def Defect.description : Defect → String
  | .undecodable e => e.message
  | .misfit m => m.description
  | .file e => e.description
  | .limit l => l.message
  | .unencodable => "'utf-8' codec can't encode character: surrogates not allowed"
  | .foreign what => what

end OpenApiIR
