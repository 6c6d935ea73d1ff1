/-! Code points that are no characters. A text may hold single halves of surrogate pairs, and no
encoding has bytes for them. A half stands here as one of the last 2048 characters of all, which are
private and not taken to occur for themselves. -/

namespace OpenApiIR.Text

def isHighSurrogate (n : Nat) : Bool := 0xD800 ≤ n && n ≤ 0xDBFF

def isLowSurrogate (n : Nat) : Bool := 0xDC00 ≤ n && n ≤ 0xDFFF

/-- The first of the characters that stand for halves. -/
def firstHalf : Nat := 0x10F800

def ofCodePoint (n : Nat) : Char :=
  Char.ofNat (if isHighSurrogate n || isLowSurrogate n then n - 0xD800 + firstHalf else n)

def isHalf (c : Char) : Bool := firstHalf ≤ c.toNat

def codePoint (c : Char) : Nat := if isHalf c then c.toNat - firstHalf + 0xD800 else c.toNat

/-- A text that has bytes. -/
def Encodable (s : String) : Prop := ∀ c ∈ s.toList, isHalf c = false

instance (s : String) : Decidable (Encodable s) :=
  List.decidableBAll (fun c => isHalf c = false) s.toList

theorem ofCodePoint_of_small {n : Nat} (h : n < 0xD800) : ofCodePoint n = Char.ofNat n := by
  have hhigh : isHighSurrogate n = false := by
    simp only [isHighSurrogate, Bool.and_eq_false_iff, decide_eq_false_iff_not]
    omega
  have hlow : isLowSurrogate n = false := by
    simp only [isLowSurrogate, Bool.and_eq_false_iff, decide_eq_false_iff_not]
    omega
  simp [ofCodePoint, hhigh, hlow]

theorem encodable_append {s t : String} : Encodable (s ++ t) ↔ Encodable s ∧ Encodable t := by
  simp only [Encodable, String.toList_append, List.mem_append, or_imp, forall_and]

end OpenApiIR.Text
