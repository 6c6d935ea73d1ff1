import Mathlib.Tactic.SplitIfs
import OpenApiIR.Load.Source
import OpenApiIR.Proofs.Showing

/-! Bytes and back. A text is read from the bytes that it is written as, character by character, and
so is the text of a file as long as it has no carriage return. No other bytes are read as a text. -/

namespace OpenApiIR

namespace Text

theorem bytes_eq (s : String) : s.toUTF8.toList = s.toList.flatMap String.utf8EncodeChar := by
  have hbytes : (String.ofList s.toList).toUTF8 = s.toList.utf8Encode := String.toByteArray_ofList
  rw [String.ofList_toList] at hbytes
  rw [hbytes, List.utf8Encode]
  simp [ByteArray.toList, bytes_loop]

section

variable {h m seen count low high bits n : Nat} {bs rest : List UInt8}

theorem utf8Rest_cons (hm : m < 64) (hlow : low ≤ m + 0x80) (hhigh : m + 0x80 ≤ high) :
    utf8Rest seen (count + 1) low high bits (UInt8.ofNat (m + 0x80) :: bs) =
      utf8Rest (seen + 1) count 0x80 0xBF (bits * 64 + m) bs := by
  have hbyte : (UInt8.ofNat (m + 0x80)).toNat = m + 0x80 := by
    rw [UInt8.toNat_ofNat']
    omega
  rw [utf8Rest, hbyte, if_pos ⟨hlow, hhigh⟩, Nat.add_sub_cancel]

theorem utf8Lead?_two (hlow : 2 ≤ h) (hhigh : h < 32) :
    utf8Lead? (h + 0xC0) = some ⟨1, h, 0x80, 0xBF⟩ := by
  have hascii : ¬ h + 0xC0 < 0x80 := by omega
  have hshort : ¬ h + 0xC0 < 0xC2 := by omega
  have htwo : h + 0xC0 < 0xE0 := by omega
  rw [utf8Lead?, if_neg hascii, if_neg hshort, if_pos htwo, Nat.add_sub_cancel]

/-- Of three bytes the first may narrow the second: no short form is written at length, and no half
of a pair. -/
theorem utf8Lead?_three (hh : h < 16) (hm : m < 64) (hzero : h = 0 → 32 ≤ m)
    (hpair : h = 13 → m < 32) :
    ∃ low high, utf8Lead? (h + 0xE0) = some ⟨2, h, low, high⟩ ∧ low ≤ m + 0x80 ∧
      m + 0x80 ≤ high := by
  have hascii : ¬ h + 0xE0 < 0x80 := by omega
  have hshort : ¬ h + 0xE0 < 0xC2 := by omega
  have htwo : ¬ h + 0xE0 < 0xE0 := by omega
  have hthree : h + 0xE0 < 0xF0 := by omega
  rw [utf8Lead?, if_neg hascii, if_neg hshort, if_neg htwo]
  by_cases h0 : h = 0
  · subst h0
    exact ⟨0xA0, 0xBF, rfl, by omega, by omega⟩
  · have hne : ¬ h + 0xE0 = 0xE0 := by omega
    rw [if_neg hne]
    by_cases h13 : h = 13
    · subst h13
      exact ⟨0x80, 0x9F, rfl, by omega, by omega⟩
    · have hne' : ¬ h + 0xE0 = 0xED := by omega
      rw [if_neg hne', if_pos hthree, Nat.add_sub_cancel]
      exact ⟨0x80, 0xBF, rfl, by omega, by omega⟩

/-- Of four bytes the first may narrow the second: there is a last character. -/
theorem utf8Lead?_four (hh : h < 5) (hm : m < 64) (hzero : h = 0 → 16 ≤ m)
    (hlast : h = 4 → m < 16) :
    ∃ low high, utf8Lead? (h + 0xF0) = some ⟨3, h, low, high⟩ ∧ low ≤ m + 0x80 ∧
      m + 0x80 ≤ high := by
  obtain rfl | rfl | rfl | rfl | rfl : h = 0 ∨ h = 1 ∨ h = 2 ∨ h = 3 ∨ h = 4 := by omega
  · exact ⟨0x90, 0xBF, rfl, by omega, by omega⟩
  · exact ⟨0x80, 0xBF, rfl, by omega, by omega⟩
  · exact ⟨0x80, 0xBF, rfl, by omega, by omega⟩
  · exact ⟨0x80, 0xBF, rfl, by omega, by omega⟩
  · exact ⟨0x80, 0x8F, rfl, by omega, by omega⟩

theorem utf8CharsFrom_lead {lead : Utf8Lead} (budget position : Nat) (hh : h < 256)
    (hlead : utf8Lead? h = some lead)
    (hrest : utf8Rest 1 lead.following lead.low lead.high lead.bits bs = .ok (n, rest)) :
    utf8CharsFrom (budget + 1) position (UInt8.ofNat h :: bs) =
      (utf8CharsFrom budget (position + 1 + lead.following) rest).map (Char.ofNat n :: ·) := by
  have hbyte : (UInt8.ofNat h).toNat = h := by
    rw [UInt8.toNat_ofNat']
    omega
  rw [utf8CharsFrom, hbyte, hlead]
  simp only [hrest]

end

theorem utf8CharsFrom_char (c : Char) (budget position : Nat) (rest : List UInt8) : ∃ next,
    utf8CharsFrom (budget + 1) position (String.utf8EncodeChar c ++ rest) =
      (utf8CharsFrom budget next rest).map (c :: ·) := by
  have hc : Char.ofNat c.toNat = c := Char.ofNat_toNat c
  have hvalid : c.toNat < 0xD800 ∨ 0xDFFF < c.toNat ∧ c.toNat < 0x110000 := c.valid
  unfold String.utf8EncodeChar
  dsimp only
  generalize hv : c.val.toNat = v
  have hcv : c.toNat = v := hv
  rw [hcv] at hc hvalid
  split_ifs with h1 h2 h3
  · have hlead : utf8Lead? v = some ⟨0, v, 0, 0⟩ := if_pos (by omega)
    have hrest : utf8Rest 1 0 0 0 v rest = .ok (v, rest) := rfl
    have h := utf8CharsFrom_lead budget position (by omega) hlead hrest
    exact ⟨_, hc ▸ h⟩
  · have hlead := utf8Lead?_two (h := v / 64 % 32) (by omega) (by omega)
    have hrest : utf8Rest 1 1 0x80 0xBF (v / 64 % 32) (UInt8.ofNat (v % 64 + 0x80) :: rest) =
        .ok (v, rest) := by
      rw [utf8Rest_cons (by omega) (by omega) (by omega), utf8Rest]
      congr 2
      omega
    have h := utf8CharsFrom_lead budget position (by omega) hlead hrest
    exact ⟨_, hc ▸ h⟩
  · obtain ⟨low, high, hlead, hlow, hhigh⟩ :=
      utf8Lead?_three (h := v / 4096 % 16) (m := v / 64 % 64)
      (by omega) (by omega) (by omega) (by omega)
    have hrest : utf8Rest 1 2 low high (v / 4096 % 16)
        (UInt8.ofNat (v / 64 % 64 + 0x80) :: UInt8.ofNat (v % 64 + 0x80) :: rest) =
        .ok (v, rest) := by
      rw [utf8Rest_cons (by omega) hlow hhigh, utf8Rest_cons (by omega) (by omega) (by omega),
        utf8Rest]
      congr 2
      omega
    have h := utf8CharsFrom_lead budget position (by omega) hlead hrest
    exact ⟨_, hc ▸ h⟩
  · obtain ⟨low, high, hlead, hlow, hhigh⟩ := utf8Lead?_four (h := v / 262144 % 8)
      (m := v / 4096 % 64) (by omega) (by omega) (by omega) (by omega)
    have hrest : utf8Rest 1 3 low high (v / 262144 % 8) (UInt8.ofNat (v / 4096 % 64 + 0x80) ::
        UInt8.ofNat (v / 64 % 64 + 0x80) :: UInt8.ofNat (v % 64 + 0x80) :: rest) =
          .ok (v, rest) := by
      rw [utf8Rest_cons (by omega) hlow hhigh, utf8Rest_cons (by omega) (by omega) (by omega),
        utf8Rest_cons (by omega) (by omega) (by omega), utf8Rest]
      congr 2
      omega
    have h := utf8CharsFrom_lead budget position (by omega) hlead hrest
    exact ⟨_, hc ▸ h⟩

theorem utf8CharsFrom_encoded {cs : List Char} {budget : Nat} (hb : cs.length < budget)
    (position : Nat) :
    utf8CharsFrom budget position (cs.flatMap String.utf8EncodeChar) = .ok cs := by
  induction cs generalizing budget position with
  | nil =>
    obtain ⟨b, rfl⟩ : ∃ b, budget = b + 1 := ⟨budget - 1, by omega⟩
    rfl
  | cons c cs ih =>
    rw [List.length_cons] at hb
    obtain ⟨b, rfl⟩ : ∃ b, budget = b + 1 := ⟨budget - 1, by omega⟩
    obtain ⟨next, hchar⟩ := utf8CharsFrom_char c b position (cs.flatMap String.utf8EncodeChar)
    rw [List.flatMap_cons, hchar, ih (by omega)]
    rfl

theorem length_le_bytes (cs : List Char) :
    cs.length ≤ (cs.flatMap String.utf8EncodeChar).length := by
  induction cs with
  | nil => exact Nat.zero_le _
  | cons c cs ih =>
    have hc := Char.utf8Size_pos c
    simp only [List.flatMap_cons, List.length_append, List.length_cons,
      String.length_utf8EncodeChar]
    omega

theorem decodeUtf8_bytes (s : String) : decodeUtf8 s.toUTF8.toList = .ok s.toList := by
  have hb := length_le_bytes s.toList
  rw [decodeUtf8, bytes_eq]
  exact utf8CharsFrom_encoded (by omega) 0

theorem bytes_inj {a b : String} : a.toUTF8.toList = b.toUTF8.toList ↔ a = b := by
  constructor
  · intro h
    have ha := decodeUtf8_bytes a
    rw [h, decodeUtf8_bytes] at ha
    exact String.toList_inj.mp (Except.ok.inj ha).symm
  · rintro rfl
    rfl

theorem bytes_eq_nil_iff {s : String} : s.toUTF8.toList = [] ↔ s = "" := by
  rw [← bytes_empty, bytes_inj]

section

variable {n m k h seen count low high bits budget position : Nat} {bs rest bytes : List UInt8}
variable {cs : List Char} {b : UInt8}

theorem utf8Rest_succ_eq_ok (hlow : 0x80 ≤ low) (hhigh : high ≤ 0xBF)
    (h : utf8Rest seen (count + 1) low high bits bs = .ok (n, rest)) :
    ∃ m after, bs = UInt8.ofNat (m + 0x80) :: after ∧ m < 64 ∧ low ≤ m + 0x80 ∧ m + 0x80 ≤ high ∧
      utf8Rest (seen + 1) count 0x80 0xBF (bits * 64 + m) after = .ok (n, rest) := by
  cases bs with
  | nil => cases h
  | cons b after =>
    by_cases hb : low ≤ b.toNat ∧ b.toNat ≤ high
    · rw [utf8Rest, if_pos hb] at h
      have hm : b.toNat - 0x80 + 0x80 = b.toNat := by omega
      refine ⟨b.toNat - 0x80, after, ?_, by omega, by omega, by omega, h⟩
      rw [hm, UInt8.ofNat_toNat]
    · rw [utf8Rest, if_neg hb] at h
      cases h

theorem ofNat_toNat_of_valid (hv : n < 0xD800 ∨ 0xDFFF < n ∧ n < 0x110000) :
    (Char.ofNat n).val.toNat = n := by
  have hvalid : n.isValidChar := hv
  unfold Char.ofNat
  rw [dif_pos hvalid]
  rfl

theorem utf8EncodeChar_one (h : n < 0x80) :
    String.utf8EncodeChar (Char.ofNat n) = [UInt8.ofNat n] := by
  have hn : (Char.ofNat n).val.toNat = n := ofNat_toNat_of_valid (by omega)
  unfold String.utf8EncodeChar
  dsimp only
  rw [hn, if_pos (by omega)]

theorem utf8EncodeChar_two (hlow : 2 ≤ h) (hhigh : h < 32) (hm : m < 64) :
    String.utf8EncodeChar (Char.ofNat (h * 64 + m)) =
      [UInt8.ofNat (h + 0xC0), UInt8.ofNat (m + 0x80)] := by
  have hn : (Char.ofNat (h * 64 + m)).val.toNat = h * 64 + m := ofNat_toNat_of_valid (by omega)
  have hlead : (h * 64 + m) / 64 % 32 = h := by omega
  have hlast : (h * 64 + m) % 64 = m := by omega
  unfold String.utf8EncodeChar
  dsimp only
  rw [hn, if_neg (by omega), if_pos (by omega), hlead, hlast]

theorem utf8EncodeChar_three (hh : h < 16) (hm : m < 64) (hk : k < 64) (hzero : h = 0 → 32 ≤ m)
    (hpair : h = 13 → m < 32) :
    String.utf8EncodeChar (Char.ofNat ((h * 64 + m) * 64 + k)) =
      [UInt8.ofNat (h + 0xE0), UInt8.ofNat (m + 0x80), UInt8.ofNat (k + 0x80)] := by
  have hn : (Char.ofNat ((h * 64 + m) * 64 + k)).val.toNat = (h * 64 + m) * 64 + k :=
    ofNat_toNat_of_valid (by omega)
  have hlead : ((h * 64 + m) * 64 + k) / 4096 % 16 = h := by omega
  have hmiddle : ((h * 64 + m) * 64 + k) / 64 % 64 = m := by omega
  have hlast : ((h * 64 + m) * 64 + k) % 64 = k := by omega
  unfold String.utf8EncodeChar
  dsimp only
  rw [hn, if_neg (by omega), if_neg (by omega), if_pos (by omega), hlead, hmiddle, hlast]

theorem utf8EncodeChar_four {l : Nat} (hh : h < 5) (hm : m < 64) (hk : k < 64) (hl : l < 64)
    (hzero : h = 0 → 16 ≤ m) (hlast : h = 4 → m < 16) :
    String.utf8EncodeChar (Char.ofNat (((h * 64 + m) * 64 + k) * 64 + l)) =
      [UInt8.ofNat (h + 0xF0), UInt8.ofNat (m + 0x80), UInt8.ofNat (k + 0x80),
        UInt8.ofNat (l + 0x80)] := by
  generalize hv : ((h * 64 + m) * 64 + k) * 64 + l = v
  have hn : (Char.ofNat v).val.toNat = v := ofNat_toNat_of_valid (by omega)
  have hlead : v / 262144 % 8 = h := by omega
  have hsecond : v / 4096 % 64 = m := by omega
  have hthird : v / 64 % 64 = k := by omega
  have hfourth : v % 64 = l := by omega
  unfold String.utf8EncodeChar
  dsimp only
  rw [hn, if_neg (by omega), if_neg (by omega), if_neg (by omega), hlead, hsecond, hthird, hfourth]

/-- What a lead byte promises, told by the number of bytes that follow it. -/
inductive LeadForm (n : Nat) : Utf8Lead → Prop where
  | one : n < 0x80 → LeadForm n ⟨0, n, 0, 0⟩
  | two : 0xC2 ≤ n → n < 0xE0 → LeadForm n ⟨1, n - 0xC0, 0x80, 0xBF⟩
  | three {low high : Nat} : 0xE0 ≤ n → n < 0xF0 → 0x80 ≤ low → high ≤ 0xBF →
      (n = 0xE0 → 0xA0 ≤ low) → (n = 0xED → high ≤ 0x9F) → LeadForm n ⟨2, n - 0xE0, low, high⟩
  | four {low high : Nat} : 0xF0 ≤ n → n < 0xF5 → 0x80 ≤ low → high ≤ 0xBF →
      (n = 0xF0 → 0x90 ≤ low) → (n = 0xF4 → high ≤ 0x8F) → LeadForm n ⟨3, n - 0xF0, low, high⟩

theorem leadForm_of_utf8Lead? {lead : Utf8Lead} (h : utf8Lead? n = some lead) :
    LeadForm n lead := by
  unfold utf8Lead? at h
  split_ifs at h with h1 h2 h3 h4 h5 h6 h7 h8 h9 <;> obtain rfl := Option.some.inj h
  · exact .one h1
  · exact .two (by omega) h3
  · subst h4
    exact .three (by omega) (by omega) (by omega) (by omega) (by omega) (by omega)
  · subst h5
    exact .three (by omega) (by omega) (by omega) (by omega) (by omega) (by omega)
  · exact .three (by omega) h6 (by omega) (by omega) (by omega) (by omega)
  · subst h7
    exact .four (by omega) (by omega) (by omega) (by omega) (by omega) (by omega)
  · exact .four (by omega) (by omega) (by omega) (by omega) (by omega) (by omega)
  · subst h9
    exact .four (by omega) (by omega) (by omega) (by omega) (by omega) (by omega)

/-- The bytes that were read as one character are those that it is written as. -/
theorem bytes_of_utf8Rest {lead : Utf8Lead} (hlead : LeadForm b.toNat lead)
    (h : utf8Rest 1 lead.following lead.low lead.high lead.bits bs = .ok (n, rest)) :
    b :: bs = String.utf8EncodeChar (Char.ofNat n) ++ rest := by
  have hb : ∀ {k}, k = b.toNat → UInt8.ofNat k = b := fun hk => hk ▸ UInt8.ofNat_toNat
  cases hlead with
  | one h1 =>
    obtain ⟨rfl, rfl⟩ := Prod.mk.inj (Except.ok.inj h)
    rw [utf8EncodeChar_one h1, hb rfl]
    rfl
  | two hlow hhigh =>
    dsimp only at h
    obtain ⟨m, after, rfl, hm, -, -, h⟩ := utf8Rest_succ_eq_ok (by omega) (by omega) h
    obtain ⟨rfl, rfl⟩ := Prod.mk.inj (Except.ok.inj h)
    rw [utf8EncodeChar_two (by omega) (by omega) hm, hb (k := b.toNat - 0xC0 + 0xC0) (by omega)]
    rfl
  | three hlow hhigh hl hh hzero hpair =>
    dsimp only at h
    obtain ⟨m, after, rfl, hm, hml, hmh, h⟩ := utf8Rest_succ_eq_ok hl hh h
    obtain ⟨k, after, rfl, hk, -, -, h⟩ := utf8Rest_succ_eq_ok (by omega) (by omega) h
    obtain ⟨rfl, rfl⟩ := Prod.mk.inj (Except.ok.inj h)
    rw [utf8EncodeChar_three (by omega) hm hk (by omega) (by omega),
      hb (k := b.toNat - 0xE0 + 0xE0) (by omega)]
    rfl
  | four hlow hhigh hl hh hzero hlast =>
    dsimp only at h
    obtain ⟨m, after, rfl, hm, hml, hmh, h⟩ := utf8Rest_succ_eq_ok hl hh h
    obtain ⟨k, after, rfl, hk, -, -, h⟩ := utf8Rest_succ_eq_ok (by omega) (by omega) h
    obtain ⟨l, after, rfl, hl, -, -, h⟩ := utf8Rest_succ_eq_ok (by omega) (by omega) h
    obtain ⟨rfl, rfl⟩ := Prod.mk.inj (Except.ok.inj h)
    rw [utf8EncodeChar_four (by omega) hm hk hl (by omega) (by omega),
      hb (k := b.toNat - 0xF0 + 0xF0) (by omega)]
    rfl

theorem utf8CharsFrom_cons_eq_ok (h : utf8CharsFrom (budget + 1) position (b :: bs) = .ok cs) :
    ∃ lead n rest next tail, utf8Lead? b.toNat = some lead ∧
      utf8Rest 1 lead.following lead.low lead.high lead.bits bs = .ok (n, rest) ∧
      utf8CharsFrom budget next rest = .ok tail ∧ cs = Char.ofNat n :: tail := by
  unfold utf8CharsFrom at h
  split at h
  · cases h
  · rename_i lead hlead
    split at h
    · cases h
    · rename_i n rest hrest
      cases htail : utf8CharsFrom budget (position + 1 + lead.following) rest with
      | error e =>
        rw [htail] at h
        cases h
      | ok tail =>
        rw [htail] at h
        exact ⟨lead, n, rest, _, tail, hlead, hrest, htail, (Except.ok.inj h).symm⟩

theorem bytes_of_utf8CharsFrom (hb : bytes.length < budget)
    (h : utf8CharsFrom budget position bytes = .ok cs) : cs.flatMap String.utf8EncodeChar =
    bytes := by
  induction budget generalizing position bytes cs with
  | zero => omega
  | succ budget ih =>
    cases bytes with
    | nil =>
      obtain rfl := Except.ok.inj h
      rfl
    | cons b bs =>
      obtain ⟨lead, n, rest, next, tail, hlead, hrest, htail, rfl⟩ := utf8CharsFrom_cons_eq_ok h
      have hchar := bytes_of_utf8Rest (leadForm_of_utf8Lead? hlead) hrest
      have hlength := congrArg List.length hchar
      have hsize := Char.utf8Size_pos (Char.ofNat n)
      simp only [List.length_cons, List.length_append, String.length_utf8EncodeChar] at hlength hb
      rw [List.flatMap_cons, ih (by omega) htail, hchar]

/-- Bytes are read as a text exactly when they are what it is written as. -/
theorem decodeUtf8_eq_ok_iff {bytes : List UInt8} {cs : List Char} :
    decodeUtf8 bytes = .ok cs ↔ (String.ofList cs).toUTF8.toList = bytes := by
  constructor
  · intro h
    rw [bytes_eq, String.toList_ofList]
    exact bytes_of_utf8CharsFrom (Nat.lt_succ_self _) h
  · rintro rfl
    rw [decodeUtf8_bytes, String.toList_ofList]

end

theorem unifyLineEnds_eq_self {cs : List Char} (h : '\r' ∉ cs) : unifyLineEnds cs = cs := by
  fun_induction unifyLineEnds cs with
  | case1 => rfl
  | case2 rest ih => exact absurd List.mem_cons_self h
  | case3 c rest hpair ih =>
    have hc : c ≠ '\r' := fun hc => h (hc ▸ List.mem_cons_self)
    rw [if_neg hc, ih fun hm => h (List.mem_cons_of_mem c hm)]

end Text

theorem Load.fileText_bytes {s : String} (h : '\r' ∉ s.toList) :
    fileText s.toUTF8.toList = .ok s := by
  rw [fileText, Text.decodeUtf8_bytes, Except.map, Text.unifyLineEnds_eq_self h,
    String.ofList_toList]

end OpenApiIR
