/-! Doubles as exact numbers: a sign, a significand below `2 ^ 53` and a power of two, or an
infinity, or not a number. Rounding goes to the nearest double, a tie to the even significand. No
operation of the machine is involved, so every value here can be computed with in proofs. -/

namespace OpenApiIR

/-- `finite s m e` stands for `m * 2 ^ e`, negated when `s`. Every finite value made here is in
lowest form: `m < 2 ^ 53`, `-1074 ≤ e ≤ 971`, and `2 ^ 52 ≤ m` unless `e = -1074`. -/
inductive Binary64 where
  | nan
  | infinite (negative : Bool)
  | finite (negative : Bool) (significand : Nat) (exponent : Int)
  deriving DecidableEq, Repr

namespace Binary64

def leastExponent : Int := -1074

def greatestExponent : Int := 971

def zero (negative : Bool) : Binary64 := .finite negative 0 leastExponent

def nearest (num den : Nat) : Nat :=
  let q := num / den
  let r := num % den
  if 2 * r < den then q
  else if den < 2 * r then q + 1
  else if q % 2 = 0 then q else q + 1

/-- The power `2 ^ e`, or 1 for a negative exponent: a fraction puts `twoTo (-e)` on its other side.
-/
def twoTo (e : Int) : Nat := Nat.pow 2 e.toNat

def tenTo (s : Int) : Nat := Nat.pow 10 s.toNat

def unscale (num den : Nat) (e : Int) : Nat × Nat := (num * twoTo (-e), den * twoTo e)

def ofRatio (negative : Bool) (num den : Nat) : Binary64 :=
  if num = 0 ∨ den = 0 then zero negative
  else
    let guess := (num.log2 : Int) - den.log2 - 53
    let (a, b) := unscale num den guess
    let e := max leastExponent (if twoTo 53 ≤ a / b then guess + 1 else guess)
    let (c, d) := unscale num den e
    let m := nearest c d
    let (m, e) := if m = twoTo 53 then (twoTo 52, e + 1) else (m, e)
    if greatestExponent < e then .infinite negative else .finite negative m e

def ofInt (i : Int) : Binary64 := ofRatio (i < 0) i.natAbs 1

/-- The double nearest to `digits * 10 ^ scale`. Values beyond the range of doubles by many orders
of magnitude are settled without computing the power. -/
def ofDecimal (negative : Bool) (digits : Nat) (scale : Int) : Binary64 :=
  if digits = 0 then zero negative
  else
    let point := (toString digits).length + scale
    if 400 < point then .infinite negative
    else if point < -400 then zero negative
    else ofRatio negative (digits * tenTo scale) (tenTo (-scale))

def negate : Binary64 → Binary64
  | .nan => .nan
  | .infinite s => .infinite !s
  | .finite s m e => .finite (!s) m e

def units (negative : Bool) (m : Nat) (e : Int) : Int :=
  let n : Int := m * twoTo (e - leastExponent)
  if negative then -n else n

def add : Binary64 → Binary64 → Binary64
  | .finite s m e, .finite s' m' e' =>
    let n := units s m e + units s' m' e'
    ofRatio (if n = 0 then s && s' else n < 0) n.natAbs (twoTo (-leastExponent))
  | .infinite s, .infinite s' => if s = s' then .infinite s else .nan
  | .infinite s, .finite .. => .infinite s
  | .finite .., .infinite s => .infinite s
  | .nan, _ | _, .nan => .nan

def mul : Binary64 → Binary64 → Binary64
  | .finite s m e, .finite s' m' e' =>
    ofRatio (s != s') (m * m' * twoTo (e + e')) (twoTo (-(e + e')))
  | .infinite s, .infinite s' => .infinite (s != s')
  | .infinite s, .finite s' m _ => if m = 0 then .nan else .infinite (s != s')
  | .finite s m _, .infinite s' => if m = 0 then .nan else .infinite (s != s')
  | .nan, _ | _, .nan => .nan

def isPositive : Binary64 → Bool
  | .nan => false
  | .infinite s => !s
  | .finite s m _ => !s && m != 0

/-- Do the two doubles name the same number? Zero has two names; not-a-number is one value here. -/
def same : Binary64 → Binary64 → Bool
  | .finite s m e, .finite s' m' e' => (m == 0 && m' == 0) || (s == s' && m == m' && e == e')
  | a, b => a == b

def isInt : Binary64 → Int → Bool
  | .finite s m e, i => units s m e == i * twoTo (-leastExponent)
  | _, _ => false

end Binary64

end OpenApiIR
