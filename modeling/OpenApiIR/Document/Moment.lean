import OpenApiIR.Text.Digit

/-! Calendar dates and times of day, in the proleptic Gregorian calendar. -/

namespace OpenApiIR

structure Date where
  year : Nat
  month : Nat
  day : Nat
  deriving DecidableEq, Repr

/-- A date with a time of day; `offset` is the distance from universal time in minutes, where known.
-/
structure Moment where
  date : Date
  hour : Nat
  minute : Nat
  second : Nat
  microsecond : Nat
  offset : Option Int
  deriving DecidableEq, Repr

namespace Date

def isLeap (year : Nat) : Bool := year % 4 == 0 && (year % 100 != 0 || year % 400 == 0)

def daysInMonth (year month : Nat) : Nat :=
  if month = 2 then if isLeap year then 29 else 28
  else if month = 4 ∨ month = 6 ∨ month = 9 ∨ month = 11 then 30 else 31

def Exists (d : Date) : Prop :=
  1 ≤ d.year ∧ d.year ≤ 9999 ∧ 1 ≤ d.month ∧ d.month ≤ 12 ∧ 1 ≤ d.day ∧
    d.day ≤ daysInMonth d.year d.month

instance (d : Date) : Decidable d.Exists := inferInstanceAs (Decidable (_ ∧ _))

/-- Days since the year 1 began, counting from 1. -/
def dayNumber (d : Date) : Int :=
  let y := d.year - 1
  let before := (List.range (d.month - 1)).foldl (fun n m => n + daysInMonth d.year (m + 1)) 0
  365 * y + y / 4 - y / 100 + y / 400 + before + d.day

def text (d : Date) : String :=
  Text.padded 4 d.year ++ "-" ++ Text.padded 2 d.month ++ "-" ++ Text.padded 2 d.day

end Date

namespace Moment

def Exists (t : Moment) : Prop :=
  t.date.Exists ∧ t.hour < 24 ∧ t.minute < 60 ∧ t.second < 60 ∧ t.microsecond < 1000000 ∧
    ∀ o ∈ t.offset, o.natAbs < 1440

instance (t : Moment) : Decidable t.Exists := inferInstanceAs (Decidable (_ ∧ _))

def microseconds (t : Moment) (offset : Int) : Int :=
  (((t.date.dayNumber * 24 + t.hour) * 60 + t.minute - offset) * 60 + t.second) * 1000000 +
    t.microsecond

/-- Moments with a known offset are the same when they name one instant. -/
def same (a b : Moment) : Bool :=
  match a.offset, b.offset with
  | none, none => a == b
  | some x, some y => a.microseconds x == b.microseconds y
  | _, _ => false

def offsetText (o : Int) : String :=
  (if o < 0 then "-" else "+") ++ Text.padded 2 (o.natAbs / 60) ++ ":" ++
    Text.padded 2 (o.natAbs % 60)

def text (t : Moment) : String :=
  t.date.text ++ " " ++ Text.padded 2 t.hour ++ ":" ++ Text.padded 2 t.minute ++ ":" ++
    Text.padded 2 t.second ++
    (if t.microsecond = 0 then "" else "." ++ Text.padded 6 t.microsecond) ++
    (match t.offset with
      | none => ""
      | some o => offsetText o)

end Moment

end OpenApiIR
