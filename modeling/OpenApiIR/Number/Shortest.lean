import OpenApiIR.Number.Binary64

/-! The shortest decimal text of a double. Of all decimals that round to the double those with the
fewest digits are taken, and of these the one nearest to it. -/

namespace OpenApiIR.Binary64

/-- The two sides of a comparison of `a * 10 ^ s` with `b * 2 ^ e`, both made natural numbers. -/
def sides (a : Nat) (s : Int) (b : Nat) (e : Int) : Nat × Nat :=
  (a * tenTo s * twoTo (-e), b * twoTo e * tenTo (-s))

/-- Does `a * 10 ^ s` round to `m * 2 ^ e`? The bounds of the interval are halfway to the
neighbours, and belong to it when `m` is even; below a power of two the lower neighbour is half as
far. -/
def roundsTo (m : Nat) (e : Int) (a : Nat) (s : Int) : Bool :=
  let lower := if m = twoTo 52 ∧ leastExponent < e then 4 * m - 1 else 4 * m - 2
  let (x, lo) := sides a s lower (e - 2)
  let (y, hi) := sides a s (4 * m + 2) (e - 2)
  if m % 2 = 0 then lo ≤ x && y ≤ hi else lo < x && y < hi

/-- Of the two neighbours of `m * 2 ^ e` on the grid of the multiples of `10 ^ s`, the nearer one
that rounds to it; a tie goes to the even one. -/
def onGrid? (m : Nat) (e : Int) (s : Int) : Option Nat :=
  let (grid, value) := sides 1 s m e
  let low := value / grid
  let rest := value % grid
  let nearer := if 2 * rest < grid then low else if grid < 2 * rest then low + 1
    else if low % 2 = 0 then low else low + 1
  let other := if nearer = low then low + 1 else low
  if roundsTo m e nearer s then some nearer
  else if roundsTo m e other s then some other
  else none

def places (m : Nat) (e : Int) : Int :=
  let (scaled, unit) := (m * twoTo e * tenTo 340, twoTo (-e))
  ((toString (scaled / unit)).length : Int) - 340

/-- Try one more digit at a time. Seventeen digits tell all doubles apart, so the search ends early.
-/
def shortestFrom (m : Nat) (e p : Int) (digits : Nat) : (budget : Nat) → Nat × Int
  | 0 => (m, p - digits)
  | budget + 1 =>
    match onGrid? m e (p - digits) with
    | some a => (a, p - digits)
    | none => shortestFrom m e p (digits + 1) budget

def stripZeros : (budget : Nat) → Nat → Int → Nat × Int
  | 0, a, s => (a, s)
  | budget + 1, a, s => if a % 10 = 0 ∧ a ≠ 0 then stripZeros budget (a / 10) (s + 1) else (a, s)

/-- The shortest `a * 10 ^ s` that rounds to `m * 2 ^ e`, without zeros at the end of `a`. -/
def shortest (m : Nat) (e : Int) : Nat × Int :=
  let (a, s) := shortestFrom m e (places m e) 1 17
  stripZeros 20 a s

structure Spelling where
  /-- Numbers from `10 ^ leastPower` up to `10 ^ powerLimit` are written out. -/
  leastPower : Int
  powerLimit : Int
  exponentWidth : Nat
  notANumber : String
  infinity : String

/-- Numbers from `1e-4` up to `1e16` are written out, with at least one place after the point. -/
def plainSpelling : Spelling := ⟨-4, 16, 2, "nan", "inf"⟩

def zeros (n : Nat) : String := String.ofList (List.replicate n '0')

def positional (a : Nat) (s : Int) : String :=
  let digits := toString a
  let point := (digits.length : Int) + s
  if 0 ≤ s then digits ++ zeros s.toNat ++ ".0"
  else if point ≤ 0 then "0." ++ zeros (-point).toNat ++ digits
  else String.ofList (digits.toList.take point.toNat) ++ "." ++
    String.ofList (digits.toList.drop point.toNat)

def scientific (width : Nat) (a : Nat) (s : Int) : String :=
  let digits := toString a
  let power := (digits.length : Int) + s - 1
  let rest := String.ofList (digits.toList.drop 1)
  let size := toString power.natAbs
  String.ofList (digits.toList.take 1) ++ (if rest.isEmpty then "" else "." ++ rest) ++ "e" ++
    (if power < 0 then "-" else "+") ++ zeros (width - size.length) ++ size

def spell (sp : Spelling) : Binary64 → String
  | .nan => sp.notANumber
  | .infinite s => (if s then "-" else "") ++ sp.infinity
  | .finite s m e =>
    (if s then "-" else "") ++
      if m = 0 then "0.0"
      else
        let (a, t) := shortest m e
        let power := ((toString a).length : Int) + t - 1
        if sp.leastPower ≤ power ∧ power < sp.powerLimit then positional a t
        else scientific sp.exponentWidth a t

def text (x : Binary64) : String := spell plainSpelling x

end OpenApiIR.Binary64
