import OpenApiIR.Document.Value
import OpenApiIR.Number.Decimal
import OpenApiIR.Text.Blank
import OpenApiIR.Text.CodePoint

/-! Settings, and how raw values become settings. A value of another type is taken where its meaning
is plain; what is refused is named with the reason. -/

namespace OpenApiIR

structure Settings where
  timeout : Binary64
  followRedirects : Bool
  mediaType : String
  deriving DecidableEq, Repr

def Settings.standard : Settings := ⟨.ofInt 30, true, "application/json"⟩

inductive Setting where
  | timeout
  | followRedirects
  | mediaType
  deriving DecidableEq, Repr

def Setting.name : Setting → String
  | .timeout => "timeout"
  | .followRedirects => "follow_redirects"
  | .mediaType => "media_type"

inductive Objection where
  | floatType
  | floatParsing
  | notPositive
  | boolType
  | boolParsing
  | stringType
  /-- A text that has no bytes. -/
  | stringUnicode
  deriving DecidableEq, Repr

def Objection.name : Objection → String
  | .floatType => "float_type"
  | .floatParsing => "float_parsing"
  | .notPositive => "greater_than"
  | .boolType => "bool_type"
  | .boolParsing => "bool_parsing"
  | .stringType => "string_type"
  | .stringUnicode => "string_unicode"

structure Refusal where
  setting : Setting
  objection : Objection
  deriving DecidableEq, Repr

def Refusal.text (r : Refusal) : String := r.setting.name ++ " (" ++ r.objection.name ++ ")"

namespace Settings

/-- A number as a double; a whole number beyond their range is none. -/
def floatOfInt (i : Int) : Except Objection Binary64 :=
  match Binary64.ofInt i with
  | .infinite _ => .error .floatType
  | x => .ok x

/-- A text is only looked at if it has bytes. -/
def withBytes {α : Type} (coerce : String → Except Objection α) (s : String) : Except Objection α :=
  if Text.Encodable s then coerce s else .error .stringUnicode

def floatOfText (s : String) : Except Objection Binary64 :=
  match Binary64.ofGroupedChars? (Text.trimBy Text.isProseBlank s.toList) with
  | some x => .ok x
  | none => .error .floatParsing

def floatOf : Value → Except Objection Binary64
  | .float x => .ok x
  | .int i => floatOfInt i
  | .bool b => floatOfInt (if b then 1 else 0)
  | .str s => withBytes floatOfText s
  | _ => .error .floatType

def timeoutOf (v : Value) : Except Objection Binary64 :=
  match floatOf v with
  | .ok x => if x.isPositive then .ok x else .error .notPositive
  | .error o => .error o

def noWords : List String := ["0", "off", "f", "false", "n", "no"]

def yesWords : List String := ["1", "on", "t", "true", "y", "yes"]

def boolOfText (s : String) : Except Objection Bool :=
  let word := String.ofList (s.toList.map Char.toLower)
  if word ∈ noWords then .ok false else if word ∈ yesWords then .ok true else .error .boolParsing

def boolOf : Value → Except Objection Bool
  | .bool b => .ok b
  | .int i => if i = 0 then .ok false else if i = 1 then .ok true else .error .boolParsing
  | .float x => if x.isInt 0 then .ok false else if x.isInt 1 then .ok true else .error .boolType
  | .str s => withBytes boolOfText s
  | _ => .error .boolType

def textOf : Value → Except Objection String
  | .str s => withBytes .ok s
  | _ => .error .stringType

def orStandard {α : Type} (coerce : Value → Except Objection α) (standard : α) :
    Option Value → Except Objection α
  | none => .ok standard
  | some v => coerce v

def refusals {α : Type} (setting : Setting) : Except Objection α → List Refusal
  | .ok _ => []
  | .error o => [⟨setting, o⟩]

/-- Settings from raw values. Every value that is refused is told; other entries mean nothing. -/
def ofEntries (es : Entries) : Except (List Refusal) Settings :=
  let raw := fun (s : Setting) => es.value? (.str s.name)
  let timeout := orStandard timeoutOf standard.timeout (raw .timeout)
  let redirects := orStandard boolOf standard.followRedirects (raw .followRedirects)
  let mediaType := orStandard textOf standard.mediaType (raw .mediaType)
  match timeout, redirects, mediaType with
  | .ok t, .ok r, .ok m => .ok ⟨t, r, m⟩
  | t, r, m =>
    .error (refusals .timeout t ++ refusals .followRedirects r ++ refusals .mediaType m)

end Settings

end OpenApiIR
