import Mathlib
import OpenApiIR.Text.LetterCase

/-! Case mappings that lead into ASCII. Of the letters outside of it, one has its small form there,
and ten their capitals. Main statements: a text whose small letters are ASCII is ASCII but for the
one, a text whose capitals are ASCII is ASCII but for the ten, and on ASCII itself the mappings go
letter by letter.

The whole library is imported for its lemmas on `Char.toLower` and `Char.toUpper`: no module of it
below the root brings them. -/

namespace OpenApiIR.Text

def IsAscii (c : Char) : Prop := c.toNat < 0x80

instance (c : Char) : Decidable (IsAscii c) := inferInstanceAs (Decidable (c.toNat < 0x80))

/-- The Kelvin sign, whose small letter is that of K. -/
def lowersIntoAscii : List Char := ['\u212a']

/-- A sharp s, the i without a dot, the long s, and seven ligatures of f, i, l, s and t. -/
def raisesIntoAscii : List Char :=
  ['\u00df', '\u0131', '\u017f', '\ufb00', '\ufb01', '\ufb02', '\ufb03', '\ufb04', '\ufb05',
    '\ufb06']

def CaseRun.StaysOutside (r : CaseRun) : Prop :=
  0x80 ≤ r.first + r.shift ∧
    (r.last + r.shift < 0xd800 ∨ 0xdfff < r.first + r.shift ∧ r.last + r.shift < 0x110000)

instance (r : CaseRun) : Decidable r.StaysOutside := inferInstanceAs (Decidable (_ ∧ _))

variable {r : CaseRun} {runs : List CaseRun} {expansions : List (Nat × List Nat)}
variable {special : List Char} {c d : Char} {n k : Nat} {s : String}

theorem CaseRun.image?_eq_some (h : r.image? n = some k) :
    r.first ≤ n ∧ n ≤ r.last ∧ k = ((n : Int) + r.shift).toNat := by
  unfold image? at h
  split at h
  · rename_i hn
    exact ⟨hn.1, hn.2.1, (Option.some.inj h).symm⟩
  · cases h

theorem CaseRun.image_outside (hr : r.StaysOutside) (h : r.image? n = some k) :
    ¬ IsAscii (Char.ofNat k) := by
  obtain ⟨hfirst, hlast, rfl⟩ := image?_eq_some h
  obtain ⟨habove, hvalid⟩ := hr
  have hchar : ((n : Int) + r.shift).toNat.isValidChar := by
    unfold Nat.isValidChar
    omega
  rw [IsAscii, Char.toNat_ofNat, if_pos hchar]
  omega

/-- A letter outside ASCII is mapped into ASCII only where the tables make an exception. -/
theorem mapLetter_into_ascii
    (hruns : ∀ r ∈ runs,
      r.last < 0x80 ∨ r.StaysOutside ∨ r.first = r.last ∧ Char.ofNat r.first ∈ special)
    (hexpansions : ∀ e ∈ expansions,
      Char.ofNat e.1 ∈ special ∨ ∃ k ∈ e.2, ¬ IsAscii (Char.ofNat k))
    (hc : ¬ IsAscii c) (h : ∀ d ∈ mapLetter runs expansions c, IsAscii d) : c ∈ special := by
  unfold mapLetter at h
  split at h
  · rename_i k hk
    obtain ⟨r, hr, himage⟩ := List.exists_of_findSome?_eq_some hk
    obtain ⟨hfirst, hlast, _⟩ := CaseRun.image?_eq_some himage
    rcases hruns r hr with hbelow | hstays | ⟨hone, hspecial⟩
    · exact absurd (Nat.lt_of_le_of_lt hlast hbelow) hc
    · exact absurd (h _ (List.mem_singleton_self _)) (CaseRun.image_outside hstays himage)
    · have hsame : r.first = c.toNat := by omega
      rwa [hsame, Char.ofNat_toNat] at hspecial
  · split at h
    · rename_i ks hks
      obtain ⟨before, after, rfl, _⟩ := List.lookup_eq_some_iff.mp hks
      rcases hexpansions (c.toNat, ks) (by simp) with hspecial | ⟨k, hk, hout⟩
      · rwa [Char.ofNat_toNat] at hspecial
      · exact absurd (h _ (List.mem_map_of_mem hk)) hout
    · exact absurd (h c (List.mem_singleton_self c)) hc

theorem lowerLetter_of_ascii (h : IsAscii c) : lowerLetter c = [c.toLower] := if_pos h

theorem upperLetter_of_ascii (h : IsAscii c) : upperLetter c = [c.toUpper] := if_pos h

theorem lowerLetter_into_ascii (h : ∀ d ∈ lowerLetter c, IsAscii d) :
    IsAscii c ∨ c ∈ lowersIntoAscii := by
  by_cases hc : IsAscii c
  · exact .inl hc
  · have hmap : lowerLetter c = mapLetter lowerRuns lowerExpansions c := if_neg hc
    rw [hmap] at h
    exact .inr (mapLetter_into_ascii (by decide +kernel) (by decide +kernel) hc h)

theorem upperLetter_into_ascii (h : ∀ d ∈ upperLetter c, IsAscii d) :
    IsAscii c ∨ c ∈ raisesIntoAscii := by
  by_cases hc : IsAscii c
  · exact .inl hc
  · have hmap : upperLetter c = mapLetter upperRuns upperExpansions c := if_neg hc
    rw [hmap] at h
    exact .inr (mapLetter_into_ascii (by decide +kernel) (by decide +kernel) hc h)

theorem isAscii_of_isAlpha (h : c.isAlpha = true) : IsAscii c := by
  simp only [Char.isAlpha, Char.isUpper, Char.isLower, Bool.or_eq_true, Bool.and_eq_true,
    decide_eq_true_eq, UInt32.le_iff_toNat_le, ge_iff_le] at h
  have hZ : 'Z'.val.toNat = 0x5a := rfl
  have hz : 'z'.val.toNat = 0x7a := rfl
  change c.val.toNat < 0x80
  omega

theorem toLower_eq_toLower_iff {n : Char} (hn : n.isUpper = true) :
    c.toLower = n.toLower ↔ c = n ∨ c = n.toLower := by
  have toUpper_self : ∀ {d : Char}, d.isUpper = true → d.toUpper = d := fun hd =>
    Char.toUpper_eq_of_not_isLower (Char.not_isLower_of_isUpper hd)
  constructor
  · intro h
    by_cases hc : c.isUpper = true
    · have hraised := congrArg Char.toUpper h
      rw [Char.toUpper_toLower_eq_toUpper, Char.toUpper_toLower_eq_toUpper, toUpper_self hc,
        toUpper_self hn] at hraised
      exact .inl hraised
    · exact .inr (Char.toLower_eq_of_not_isUpper hc ▸ h)
  · rintro (rfl | rfl)
    · rfl
    · exact Char.toLower_toLower_eq_toLower n

theorem toList_lower (s : String) : (lower s).toList = s.toList.flatMap lowerLetter :=
  String.toList_ofList

theorem toList_upper (s : String) : (upper s).toList = s.toList.flatMap upperLetter :=
  String.toList_ofList

theorem toList_lower_of_ascii (h : ∀ c ∈ s.toList, IsAscii c) :
    (lower s).toList = s.toList.map Char.toLower := by
  rw [toList_lower, List.map_eq_flatMap]
  exact List.flatMap_congr fun c hc => lowerLetter_of_ascii (h c hc)

theorem toList_upper_of_ascii (h : ∀ c ∈ s.toList, IsAscii c) :
    (upper s).toList = s.toList.map Char.toUpper := by
  rw [toList_upper, List.map_eq_flatMap]
  exact List.flatMap_congr fun c hc => upperLetter_of_ascii (h c hc)

theorem lower_eq_lower_iff {t : String} (hs : ∀ c ∈ s.toList, IsAscii c)
    (ht : ∀ c ∈ t.toList, IsAscii c) : lower s = lower t ↔ upper s = upper t := by
  rw [← String.toList_inj, ← String.toList_inj, toList_lower_of_ascii hs, toList_lower_of_ascii ht,
    toList_upper_of_ascii hs, toList_upper_of_ascii ht]
  constructor <;> intro h
  · simpa [Function.comp_def] using congrArg (List.map Char.toUpper) h
  · simpa [Function.comp_def] using congrArg (List.map Char.toLower) h

theorem ascii_of_lower (h : ∀ d ∈ (lower s).toList, IsAscii d) (hc : c ∈ s.toList) :
    IsAscii c ∨ c ∈ lowersIntoAscii := by
  rw [toList_lower] at h
  exact lowerLetter_into_ascii fun d hd => h d (List.mem_flatMap_of_mem hc hd)

theorem ascii_of_upper (h : ∀ d ∈ (upper s).toList, IsAscii d) (hc : c ∈ s.toList) :
    IsAscii c ∨ c ∈ raisesIntoAscii := by
  rw [toList_upper] at h
  exact upperLetter_into_ascii fun d hd => h d (List.mem_flatMap_of_mem hc hd)

end OpenApiIR.Text
