import OpenApiIR.Document.Scalar
import OpenApiIR.Yaml.Fault

/-! Timestamps: a date, and perhaps a time of day with a fraction of a second and a time zone. -/

namespace OpenApiIR.Yaml

structure StampTime where
  hour : Nat
  minute : Nat
  second : Nat
  fraction : List Char
  /-- Minutes ahead of universal time. -/
  zone : Option Int

structure Stamp where
  date : Date
  /-- Do month and day have two digits each? -/
  twoDigits : Bool
  time : Option StampTime

namespace Stamp

def takeNat? (least most : Nat) (cs : List Char) : Option (Nat × Nat × List Char) :=
  let digits := (cs.take most).takeWhile Text.isDigit
  if digits.length < least then none
  else some (Text.decimalNat digits, digits.length, cs.drop digits.length)

def expect? (c : Char) : List Char → Option (List Char)
  | d :: rest => if d = c then some rest else none
  | [] => none

def isGap (c : Char) : Bool := c = ' ' || c = '\t'

def zone? (cs : List Char) : Option (Option Int) :=
  if cs.isEmpty then some none
  else match cs.dropWhile isGap with
    | ['Z'] => some (some 0)
    | s :: rest =>
      if s = '+' ∨ s = '-' then do
        let (hours, _, rest) ← takeNat? 1 2 rest
        let minutes ← match rest with
          | [] => some 0
          | _ => do
            let (m, _, rest) ← takeNat? 2 2 (← expect? ':' rest)
            if rest.isEmpty then some m else none
        let offset : Int := hours * 60 + minutes
        return some (if s = '-' then -offset else offset)
      else none
    | [] => none

def time? (cs : List Char) : Option StampTime := do
  let (hour, _, cs) ← takeNat? 1 2 cs
  let (minute, _, cs) ← takeNat? 2 2 (← expect? ':' cs)
  let (second, _, cs) ← takeNat? 2 2 (← expect? ':' cs)
  let (fraction, cs) := match cs with
    | '.' :: rest => (rest.takeWhile Text.isDigit, rest.dropWhile Text.isDigit)
    | _ => ([], cs)
  return ⟨hour, minute, second, fraction, ← zone? cs⟩

/-- What separates the date from the time: a letter, or blanks. -/
def separated? : List Char → Option (List Char)
  | c :: rest =>
    if c = 'T' ∨ c = 't' then some rest
    else if isGap c then some (rest.dropWhile isGap) else none
  | [] => none

def ofChars? (cs : List Char) : Option Stamp := do
  let (year, _, cs) ← takeNat? 4 4 cs
  let (month, monthDigits, cs) ← takeNat? 1 2 (← expect? '-' cs)
  let (day, dayDigits, cs) ← takeNat? 1 2 (← expect? '-' cs)
  let time ← match cs with
    | [] => some none
    | _ => (separated? cs).bind fun rest => (time? rest).map some
  return ⟨⟨year, month, day⟩, monthDigits = 2 && dayDigits = 2, time⟩

/-- Is the text a timestamp without being called one? -/
def isPlain (s : Stamp) : Bool := s.twoDigits || s.time.isSome

def microseconds (fraction : List Char) : Nat :=
  let digits := fraction.take 6
  Text.decimalNat (digits ++ List.replicate (6 - digits.length) '0')

def scalar (s : Stamp) : Except Misfit Scalar :=
  match s.time with
  | none => if s.date.Exists then .ok (.date s.date) else .error .moment
  | some t =>
    let moment : Moment :=
      ⟨s.date, t.hour, t.minute, t.second, microseconds t.fraction, t.zone⟩
    if moment.Exists then .ok (.moment moment) else .error .moment

end Stamp

end OpenApiIR.Yaml
