/-! Limits of the runtime. A whole number is neither read from more than a fixed number of decimal
digits nor written with more, and a value is read and shown only as deep as the stack leaves room
for. -/

namespace OpenApiIR

inductive Limit where
  | read (digits : Nat)
  | written
  | depth
  /-- The act that goes too deep. -/
  | nesting (act : String)
  deriving DecidableEq, Repr

namespace Limit

/-- The most decimal digits of a whole number that are read or written. -/
def digits : Nat := 4300

def exceeded : String := "Exceeds the limit (" ++ toString digits ++
  " digits) for integer string conversion"

def advice : String := "; use sys.set_int_max_str_digits() to increase the limit"

def message : Limit → String
  | .read n => exceeded ++ ": value has " ++ toString n ++ " digits" ++ advice
  | .written => exceeded ++ advice
  | .depth => "maximum recursion depth exceeded while getting the repr of an object"
  | .nesting act => "maximum recursion depth exceeded" ++ act

def ofDigits? (n : Nat) : Option Limit := if digits < n then some (.read n) else none

def ofInt? (i : Int) : Option Limit := if Nat.pow 10 digits ≤ i.natAbs then some .written else none

/-- A limit on digits is met as an error of the value; one on depth is an error of its own kind. -/
def isValueError : Limit → Bool
  | .depth | .nesting _ => false
  | _ => true

end Limit

end OpenApiIR
