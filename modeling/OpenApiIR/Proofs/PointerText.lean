import OpenApiIR.Ref.Pointer

/-! The writing of pointers. Escaping is undone by unescaping, whatever looks like an escape in a
text already; an escaped text holds no slash, so the segments of a pointer stay apart. An index is
written in one way, as a decimal without leading zeros. -/

namespace OpenApiIR

namespace Text

variable {a b c x : Char}

theorem replacePair_cons_of_ne (h : x ≠ a) (cs : List Char) :
    replacePair a b c (x :: cs) = x :: replacePair a b c cs := by
  cases cs with
  | nil => rfl
  | cons y rest => rw [replacePair, if_neg fun hxy => h hxy.1]

theorem replacePair_of_not_mem {cs : List Char} (h : a ∉ cs) : replacePair a b c cs = cs := by
  induction cs with
  | nil => rfl
  | cons x rest ih =>
    rw [List.mem_cons, not_or] at h
    rw [replacePair_cons_of_ne (Ne.symm h.1), ih h.2]

theorem replacePair_pair (a b c : Char) (cs : List Char) :
    replacePair a b c (a :: b :: cs) = c :: replacePair a b c cs := by
  rw [replacePair, if_pos ⟨rfl, rfl⟩]

/-- The first character of a pair alone stays, and so does what follows it. -/
theorem replacePair_apart (hb : x ≠ b) (ha : x ≠ a) (cs : List Char) :
    replacePair a b c (a :: x :: cs) = a :: x :: replacePair a b c cs := by
  rw [replacePair, if_neg fun hxy => hb hxy.2, replacePair_cons_of_ne ha]

theorem decimalNat_eq (ds : List Char) : decimalNat ds = Nat.ofDigitChars 10 ds 0 := by
  rw [decimalNat, natOfDigits, List.foldl_map, Nat.ofDigitChars_eq_foldl]
  rfl

theorem isDigit_eq (c : Char) : isDigit c = c.isDigit := by
  simp [isDigit, Char.isDigit, Char.le_def]

end Text

namespace Pointer

def escapeTildes (s : List Char) : List Char :=
  s.flatMap fun c => if c = '~' then ['~', '0'] else [c]

theorem slashes_restored (s : List Char) :
    Text.replacePair '~' '1' '/' (escape s) = escapeTildes s := by
  induction s with
  | nil => rfl
  | cons c rest ih =>
    unfold escape escapeTildes at *
    rw [List.flatMap_cons, List.flatMap_cons, escapeChar, ← ih]
    by_cases htilde : c = '~'
    · rw [if_pos htilde, if_pos htilde]
      exact Text.replacePair_apart (by decide) (by decide) _
    · rw [if_neg htilde, if_neg htilde]
      by_cases hslash : c = '/'
      · rw [if_pos hslash, hslash]
        exact Text.replacePair_pair '~' '1' '/' _
      · rw [if_neg hslash]
        exact Text.replacePair_cons_of_ne htilde _

theorem tildes_restored (s : List Char) :
    Text.replacePair '~' '0' '~' (escapeTildes s) = s := by
  induction s with
  | nil => rfl
  | cons c rest ih =>
    unfold escapeTildes at *
    rw [List.flatMap_cons]
    by_cases htilde : c = '~'
    · rw [if_pos htilde, htilde]
      exact (Text.replacePair_pair '~' '0' '~' _).trans (congrArg _ ih)
    · rw [if_neg htilde]
      exact (Text.replacePair_cons_of_ne htilde _).trans (congrArg _ ih)

theorem unescape_escape (s : List Char) : unescape (escape s) = s := by
  rw [unescape, slashes_restored, tildes_restored]

theorem unescape_of_not_mem {s : List Char} (h : '~' ∉ s) : unescape s = s := by
  rw [unescape, Text.replacePair_of_not_mem h, Text.replacePair_of_not_mem h]

theorem slash_not_mem_escape (s : List Char) : '/' ∉ escape s := by
  intro h
  obtain ⟨c, _, hc⟩ := List.mem_flatMap.mp h
  unfold escapeChar at hc
  split at hc
  · simp at hc
  · split at hc
    · simp at hc
    · rename_i hne
      exact hne (List.mem_singleton.mp hc).symm

theorem escape_eq_nil_iff (s : List Char) : escape s = [] ↔ s = [] := by
  rw [← unescape_eq_nil_iff, unescape_escape]

/-- A decimal of ASCII digits: zero itself, or digits of which the first is not zero. -/
inductive Decimal : List Char → Nat → Prop where
  | zero : Decimal ['0'] 0
  | digits {d : Char} {ds : List Char} : d ≠ '0' → (∀ c ∈ d :: ds, Text.isDigit c = true) →
      Decimal (d :: ds) (Text.decimalNat (d :: ds))

theorem index?_eq_some_iff {s : List Char} {i : Nat} : index? s = some i ↔ Decimal s i := by
  constructor
  · intro h
    unfold index? at h
    split at h
    · obtain rfl := Option.some.inj h
      exact .zero
    · cases h
    · cases h
    · rename_i hzero hlead hnil
      split at h
      · rename_i hall
        obtain rfl := Option.some.inj h
        obtain ⟨d, ds, rfl⟩ := List.exists_cons_of_ne_nil hnil
        refine .digits (fun hd => ?_) (List.all_eq_true.mp hall)
        exact hlead ds (hd ▸ rfl)
      · cases h
  · rintro (_ | ⟨hd, hall⟩)
    · rfl
    · unfold index?
      simp_all

theorem digitChar_ne_zero {i : Nat} (hlt : i < 10) (h : 0 < i) : i.digitChar ≠ '0' := by
  revert i
  decide

theorem toDigits_head {i : Nat} (h : 0 < i) :
    ∃ d ds, Nat.toDigits 10 i = d :: ds ∧ d ≠ '0' := by
  induction i using Nat.strongRecOn with
  | ind i ih =>
    by_cases hlt : i < 10
    · exact ⟨i.digitChar, [], Nat.toDigits_of_lt_base hlt, digitChar_ne_zero hlt h⟩
    · obtain ⟨d, ds, hds, hd⟩ := ih (i / 10) (by omega) (by omega)
      rw [Nat.toDigits_of_base_le (by decide) (by omega), hds]
      exact ⟨d, _, rfl, hd⟩

theorem isDigit_of_mem_toDigits {i : Nat} {c : Char} (h : c ∈ Nat.toDigits 10 i) :
    Text.isDigit c = true := by
  rw [Text.isDigit_eq]
  exact Nat.isDigit_of_mem_toDigits (by decide) (by decide) h

theorem decimal_toDigits (i : Nat) : Decimal (Nat.toDigits 10 i) i := by
  rcases Nat.eq_zero_or_pos i with rfl | hi
  · exact .zero
  · obtain ⟨d, ds, hds, hd⟩ := toDigits_head hi
    have hvalue : Text.decimalNat (Nat.toDigits 10 i) = i := by
      rw [Text.decimalNat_eq, Nat.ofDigitChars_toDigits (by decide) (by decide)]
    have hdecimal : Decimal (d :: ds) (Text.decimalNat (d :: ds)) :=
      .digits hd fun c hc => isDigit_of_mem_toDigits (hds ▸ hc)
    rwa [← hds, hvalue] at hdecimal

end Pointer

end OpenApiIR
