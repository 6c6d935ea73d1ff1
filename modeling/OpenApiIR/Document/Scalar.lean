import OpenApiIR.Document.Moment
import OpenApiIR.Number.Limit
import OpenApiIR.Number.Shortest
import OpenApiIR.Text.Quoted

/-! Scalars: the leaves of a document, and the keys of its maps. -/

namespace OpenApiIR

inductive Scalar where
  | null
  | bool (b : Bool)
  | int (i : Int)
  | float (x : Binary64)
  | str (s : String)
  | date (d : Date)
  | moment (t : Moment)
  | bytes (b : List UInt8)
  deriving DecidableEq, Repr

namespace Scalar

def asInt? : Scalar → Option Int
  | .bool b => some (if b then 1 else 0)
  | .int i => some i
  | _ => none

/-- Two keys of a map that take each other's place: equal scalars, numbers of one value, and moments
of one instant. -/
def sameKey (a b : Scalar) : Bool :=
  match a, b with
  | .float x, .float y => x.same y
  | .moment s, .moment t => s.same t
  | .float x, b => match b.asInt? with
    | some i => x.isInt i
    | none => false
  | a, .float y => match a.asInt? with
    | some i => y.isInt i
    | none => false
  | a, b => match a.asInt?, b.asInt? with
    | some i, some j => i == j
    | _, _ => a == b

theorem sameKey_str (s t : String) : sameKey (.str s) (.str t) = (s == t) := by
  rw [Bool.eq_iff_iff]
  simp [sameKey, asInt?]

theorem str_sameKey_iff (s : String) (k : Scalar) : sameKey k (.str s) = true ↔ k = .str s := by
  cases k <;> simp [sameKey, asInt?]

def kindName : Scalar → String
  | .null => "NoneType"
  | .bool _ => "bool"
  | .int _ => "int"
  | .float _ => "float"
  | .str _ => "str"
  | .date _ => "date"
  | .moment _ => "datetime"
  | .bytes _ => "bytes"

def text : Scalar → String
  | .null => "None"
  | .bool b => if b then "True" else "False"
  | .int i => toString i
  | .float x => x.text
  | .str s => s
  | .date d => d.text
  | .moment t => t.text
  | .bytes b => Text.quotedBytes b

def limit? : Scalar → Option Limit
  | .int i => Limit.ofInt? i
  | _ => none

/-- A count of time as days and seconds, the seconds never negative. -/
def spanText (minutes : Int) : String :=
  let seconds := minutes * 60
  let days := seconds.fdiv 86400
  let rest := seconds.fmod 86400
  let parts := (if days = 0 then [] else ["days=" ++ toString days]) ++
    (if rest = 0 then [] else ["seconds=" ++ toString rest])
  "datetime.timedelta(" ++ (if parts.isEmpty then "0" else ", ".intercalate parts) ++ ")"

def zoneText (offset : Int) : String :=
  if offset = 0 then "datetime.timezone.utc" else "datetime.timezone(" ++ spanText offset ++ ")"

/-- Seconds and microseconds are left out from the end while they are zero. -/
def momentFields (t : Moment) : List Nat :=
  [t.date.year, t.date.month, t.date.day, t.hour, t.minute] ++
    if t.microsecond ≠ 0 then [t.second, t.microsecond]
    else if t.second ≠ 0 then [t.second] else []

def literal : Scalar → String
  | .str s => Text.quoted s
  | .date d => "datetime.date(" ++ ", ".intercalate ([d.year, d.month, d.day].map toString) ++ ")"
  | .moment t =>
    "datetime.datetime(" ++ ", ".intercalate ((momentFields t).map toString) ++
      (match t.offset with
        | none => ""
        | some o => ", tzinfo=" ++ zoneText o) ++ ")"
  | s => s.text

end Scalar

end OpenApiIR
