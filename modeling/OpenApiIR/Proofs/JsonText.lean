import Mathlib.Data.List.TakeWhile
import OpenApiIR.Json.Reader
import OpenApiIR.Json.Writer
import OpenApiIR.Proofs.Identity

/-! Reading undoes writing. Strings come back character by character, whatever has to be escaped in
them, and so do the lists and maps around them. Main statement: a value that is written with
strings, words and brackets alone is what its text is read as. -/

namespace OpenApiIR

theorem Text.hexValue?_hexDigit {n : Nat} (h : n < 16) : hexValue? (hexDigit n) = some n := by
  revert n
  decide

theorem Text.mem_hexText {c : Char} {width n : Nat} (h : c ∈ hexText width n) :
    ∃ m < 16, c = hexDigit m := by
  induction width generalizing n with
  | zero => cases h
  | succ width ih =>
    rcases List.mem_append.mp h with h | h
    · exact ih h
    · exact ⟨n % 16, Nat.mod_lt n (by decide), List.mem_singleton.mp h⟩

namespace Entries

theorem put_new {es : Entries} {k : Scalar} (h : ∀ e ∈ es, e.1.sameKey k = false) (v : Value) :
    put es k v = es ++ [(k, v)] := by
  induction es with
  | nil => rfl
  | cons e rest ih =>
    have hk := h e List.mem_cons_self
    have hrest := ih fun e' he => h e' (List.mem_cons_of_mem e he)
    obtain ⟨k', v'⟩ := e
    rw [put, hk]
    simp [hrest]

theorem ofPairs_distinct {es : Entries} (h : es.Distinct) : ofPairs es = es := by
  -- The map built so far has to vary for the induction on the entries that are left.
  have go : ∀ es acc : Entries, Distinct (acc ++ es) →
      es.foldl (fun m e => put m e.1 e.2) acc = acc ++ es := by
    intro es
    induction es with
    | nil =>
      intro acc _
      exact (List.append_nil acc).symm
    | cons e rest ih =>
      intro acc hacc
      have hnew : ∀ e' ∈ acc, e'.1.sameKey e.1 = false := by
        intro e' he'
        have hpair := List.pairwise_append.mp (List.pairwise_map.mp hacc)
        exact hpair.2.2 e' he' e List.mem_cons_self
      have happend : acc ++ [(e.1, e.2)] ++ rest = acc ++ e :: rest := by simp
      rw [List.foldl_cons, put_new hnew, ih _ (happend ▸ hacc), happend]
  exact go es [] h

end Entries

namespace Json

theorem hexQuad?_hexText {n : Nat} (h : n < 0x10000) :
    ∃ a b c d, Text.hexText 4 n = [a, b, c, d] ∧ hexQuad? a b c d = some n := by
  refine ⟨_, _, _, _, rfl, ?_⟩
  have digit : ∀ m, Text.hexValue? (Text.hexDigit (m % 16)) = some (m % 16) :=
    fun m => Text.hexValue?_hexDigit (Nat.mod_lt m (by decide))
  simp only [hexQuad?, digit, Option.bind_eq_bind, Option.bind_some, Option.pure_def]
  congr 1
  omega

section

variable {start rest : List Char} {c : Char}

theorem readString_plain (hquote : c ≠ '"') (hslash : c ≠ '\\') (hc : 0x20 ≤ c.toNat) :
    readString start (c :: rest) = (readString start rest).map fun (cs, r) => (c :: cs, r) := by
  have hnot : ¬ c.toNat < 0x20 := by omega
  rw [readString, if_neg hnot] <;> simp_all

theorem readString_simple {x : Char} (hx : simpleEscape? c = some x) :
    readString start ('\\' :: c :: rest) =
      (readString start rest).map fun (cs, r) => (x :: cs, r) := by
  have hu : c ≠ 'u' := by
    rintro rfl
    cases hx
  rw [readString, hx] <;> simp_all

/-- A code unit that starts no pair stands for itself, even before another one. -/
theorem readString_unit {a b d e after : Char} {n : Nat} (hn : hexQuad? a b d e = some n)
    (hs : Text.isHighSurrogate n = false) :
    readString start ('\\' :: 'u' :: a :: b :: d :: e :: after :: rest) =
      (readString start (after :: rest)).map fun (cs, r) => (Text.ofCodePoint n :: cs, r) := by
  by_cases hpair : ∃ f g h i x t, after = '\\' ∧ rest = 'u' :: f :: g :: h :: i :: x :: t
  · obtain ⟨f, g, h, i, x, t, rfl, rfl⟩ := hpair
    rw [readString, hn]
    simp [hs]
  · rw [readString, hn]
    intro f g h i x t ha hr
    exact hpair ⟨f, g, h, i, x, t, ha, hr⟩

theorem readString_control (hc : c.toNat < 0x20) (hrest : rest ≠ []) :
    readString start ('\\' :: 'u' :: Text.hexText 4 c.toNat ++ rest) =
      (readString start rest).map fun (cs, r) => (c :: cs, r) := by
  obtain ⟨a, b, d, e, htext, hquad⟩ := hexQuad?_hexText (n := c.toNat) (by omega)
  obtain ⟨after, t, rfl⟩ := List.exists_cons_of_ne_nil hrest
  have hhigh : Text.isHighSurrogate c.toNat = false := by
    simp only [Text.isHighSurrogate, Bool.and_eq_false_iff, decide_eq_false_iff_not]
    omega
  have hunit : Text.ofCodePoint c.toNat = c := by
    rw [Text.ofCodePoint_of_small (by omega), Char.ofNat_toNat]
  have hread : readString start ('\\' :: 'u' :: a :: b :: d :: e :: after :: t) =
      (readString start (after :: t)).map fun (cs, r) => (Text.ofCodePoint c.toNat :: cs, r) :=
    readString_unit hquad hhigh
  rw [hunit] at hread
  rw [htext]
  exact hread

theorem readString_escapeChar (c : Char) (hrest : rest ≠ []) :
    readString start (escapeChar c ++ rest) =
      (readString start rest).map fun (cs, r) => (c :: cs, r) := by
  unfold escapeChar
  split_ifs with hquote hslash hfeed hreturn htab hform hback hcontrol
  · subst hquote
    exact readString_simple rfl
  · subst hslash
    exact readString_simple rfl
  · subst hfeed
    exact readString_simple rfl
  · subst hreturn
    exact readString_simple rfl
  · subst htab
    exact readString_simple rfl
  · subst hform
    exact readString_simple rfl
  · subst hback
    exact readString_simple rfl
  · exact readString_control hcontrol hrest
  · exact readString_plain hquote hslash (by omega)

theorem readString_escaped (start cs rest : List Char) :
    readString start (cs.flatMap escapeChar ++ '"' :: rest) = .ok (cs, rest) := by
  induction cs with
  | nil => rfl
  | cons c cs ih =>
    have hrest : cs.flatMap escapeChar ++ '"' :: rest ≠ [] := by simp
    rw [List.flatMap_cons, List.append_assoc, readString_escapeChar c hrest, ih]
    rfl

end

theorem takeString_escaped (start rest : List Char) (s : String) :
    takeString start (s.toList.flatMap escapeChar ++ '"' :: rest) = .ok (s, rest) := by
  simp only [takeString, readString_escaped, String.ofList_toList]

/-- Values that are written with strings, words and brackets alone, down to so many brackets inside
one another. -/
inductive Textual : (depth : Nat) → Value → Prop where
  | null {depth : Nat} : Textual depth .null
  | bool {depth : Nat} (b : Bool) : Textual depth (.bool b)
  | str {depth : Nat} (s : String) : Textual depth (.str s)
  | seq {depth : Nat} {items : List Value} : (∀ v ∈ items, Textual depth v) →
      Textual (depth + 1) (.seq items)
  | map {depth : Nat} {es : Entries} : es.StringKeyed → (∀ e ∈ es, Textual depth e.2) →
      Textual (depth + 1) (.map es)

theorem Textual.mono {n m : Nat} {v : Value} (h : Textual n v) (hm : n ≤ m) : Textual m v := by
  induction h generalizing m with
  | null => exact .null
  | bool b => exact .bool b
  | str s => exact .str s
  | seq _ ih =>
    obtain ⟨k, rfl⟩ : ∃ k, m = k + 1 := ⟨m - 1, by omega⟩
    exact .seq fun v hv => ih v hv (by omega)
  | map hes _ ih =>
    obtain ⟨k, rfl⟩ : ∃ k, m = k + 1 := ⟨m - 1, by omega⟩
    exact .map hes fun e he => ih e he (by omega)

def memberText (level : Nat) (e : Scalar × Value) : List Char :=
  nameText e.1 ++ ':' :: ' ' :: writeValue level e.2

def tail (closing : Char) (level : Nat) (parts : List (List Char)) : List Char :=
  parts.flatMap (',' :: newLine (level + 1) ++ ·) ++ newLine level ++ [closing]

/-- The characters that the text of such a value may begin with. -/
def firsts : List Char := ['"', '[', '\x7b', 'n', 't', 'f']

def Opens (part : List Char) : Prop := ∃ c ∈ firsts, ∃ cs, part = c :: cs

/-- A value is read back, whatever stands behind it, on a budget of twice its length and in this
room. -/
def ReadsBack (level room : Nat) (v : Value) : Prop :=
  ∀ budget rest, 2 * (writeValue level v).length ≤ budget →
    readValue budget room (writeValue level v ++ rest) = .ok (v, rest)

theorem writeItems_eq (level : Nat) (items : List Value) :
    writeItems level items = items.map (writeValue level) := by
  induction items with
  | nil => rfl
  | cons v rest ih => rw [writeItems, ih, List.map_cons]

theorem writeMembers_eq (level : Nat) (es : Entries) :
    writeMembers level es = es.map (memberText level) := by
  induction es with
  | nil => rfl
  | cons e rest ih => rw [writeMembers, ih, List.map_cons, memberText]

theorem bracket_cons (opening closing : Char) (level : Nat) (part : List Char)
    (parts : List (List Char)) : bracket opening closing level (part :: parts) =
      opening :: newLine (level + 1) ++ part ++ tail closing level parts := by
  simp [bracket, tail]

variable {level budget depth room : Nat} {rest : List Char} {closing : Char}

theorem length_newLine (level : Nat) : (newLine level).length = 2 * level + 1 := by
  simp [newLine]

theorem length_tail_nil (closing : Char) (level : Nat) :
    (tail closing level []).length = 2 * level + 2 := by
  simp [tail, length_newLine]

theorem length_tail_cons (closing : Char) (level : Nat) (part : List Char)
    (parts : List (List Char)) :
    (tail closing level (part :: parts)).length =
      2 * level + 4 + part.length + (tail closing level parts).length := by
  simp only [tail, List.flatMap_cons, List.length_append, List.length_cons, length_newLine]
  omega

theorem length_memberText (level : Nat) (name : String) (v : Value) :
    (writeValue level v).length + 4 ≤ (memberText level (.str name, v)).length := by
  simp only [memberText, nameText, stringText, List.length_append, List.length_cons,
    List.length_nil]
  omega

theorem skipSpace_newLine {c : Char} (hc : isSpace c = false) (level : Nat) (cs : List Char) :
    skipSpace (newLine level ++ c :: cs) = c :: cs := by
  have hspaces : ∀ n, (List.replicate n ' ' ++ c :: cs).dropWhile isSpace = c :: cs := by
    intro n
    induction n with
    | zero => simp [hc]
    | succ n ih => simp [List.replicate_succ, ih, show isSpace ' ' = true from rfl]
  simp [skipSpace, newLine, hspaces, show isSpace '\n' = true from rfl]

theorem skipSpace_tail_nil (hc : isSpace closing = false) :
    skipSpace (tail closing level [] ++ rest) = closing :: rest := by
  have h := skipSpace_newLine hc level rest
  simpa [tail] using h

theorem skipSpace_tail_cons (closing : Char) (part : List Char) (parts : List (List Char)) :
    skipSpace (tail closing level (part :: parts) ++ rest) =
      ',' :: (newLine (level + 1) ++ (part ++ (tail closing level parts ++ rest))) := by
  simp [tail, skipSpace, isSpace]

/-- Such a character is no space, closes no bracket and marks no byte order. -/
theorem first_cases {c : Char} (h : c ∈ firsts) :
    isSpace c = false ∧ c ≠ ']' ∧ c ≠ '\x7d' ∧ c ≠ '\uFEFF' := by
  simp only [firsts, List.mem_cons, List.not_mem_nil, or_false] at h
  rcases h with rfl | rfl | rfl | rfl | rfl | rfl <;> decide

theorem Opens.append {part : List Char} (h : Opens part) (rest : List Char) :
    Opens (part ++ rest) := by
  obtain ⟨c, hc, cs, rfl⟩ := h
  exact ⟨c, hc, cs ++ rest, rfl⟩

theorem Opens.skipSpace {part : List Char} (h : Opens part) (level : Nat) (rest : List Char) :
    skipSpace (newLine level ++ (part ++ rest)) = part ++ rest := by
  obtain ⟨c, hc, cs, rfl⟩ := h
  exact skipSpace_newLine (first_cases hc).1 level (cs ++ rest)

theorem opens_bracket {opening : Char} (h : opening ∈ firsts) (closing : Char) (level : Nat)
    (parts : List (List Char)) : Opens (bracket opening closing level parts) := by
  cases parts with
  | nil => exact ⟨opening, h, _, rfl⟩
  | cons part parts => exact ⟨opening, h, _, by simp only [bracket, List.cons_append]; rfl⟩

theorem opens_value {v : Value} (h : Textual depth v) (level : Nat) :
    Opens (writeValue level v) := by
  cases h with
  | null => exact ⟨'n', by decide, _, rfl⟩
  | bool b =>
    cases b with
    | false => exact ⟨'f', by decide, _, rfl⟩
    | true => exact ⟨'t', by decide, _, rfl⟩
  | str s => exact ⟨'"', by decide, _, rfl⟩
  | seq _ => exact opens_bracket (by decide) ']' level _
  | map _ _ => exact opens_bracket (by decide) '\x7d' level _

theorem opens_member {e : Scalar × Value} (h : ∃ name, e.1 = .str name) (level : Nat) :
    Opens (memberText level e) := by
  obtain ⟨name, hname⟩ := h
  simp only [memberText, hname, nameText, stringText]
  exact ⟨'"', by decide, _, rfl⟩

theorem readItems_written {v : Value} {vs : List Value}
    (hall : ∀ w ∈ v :: vs, Textual depth w ∧ ReadsBack (level + 1) room w)
    (hb : 2 * ((writeValue (level + 1) v).length +
      (tail ']' level (vs.map (writeValue (level + 1)))).length) ≤ budget) :
    readItems budget room (writeValue (level + 1) v ++
      (tail ']' level (vs.map (writeValue (level + 1))) ++ rest)) = .ok (v :: vs, rest) := by
  induction vs generalizing v budget with
  | nil =>
    obtain ⟨-, hv⟩ := hall v List.mem_cons_self
    rw [List.map_nil, length_tail_nil] at hb
    obtain ⟨b, rfl⟩ : ∃ b, budget = b + 1 := ⟨budget - 1, by omega⟩
    rw [readItems, hv b _ (by omega)]
    simp only [List.map_nil, bind, Except.bind]
    rw [skipSpace_tail_nil rfl]
    rfl
  | cons w ws ih =>
    obtain ⟨-, hv⟩ := hall v List.mem_cons_self
    obtain ⟨hw, -⟩ := hall w (List.mem_cons_of_mem v List.mem_cons_self)
    rw [List.map_cons, length_tail_cons] at hb
    obtain ⟨b, rfl⟩ : ∃ b, budget = b + 1 := ⟨budget - 1, by omega⟩
    have hrest := @ih b w (fun x hx => hall x (List.mem_cons_of_mem v hx)) (by omega)
    rw [readItems, hv b _ (by omega)]
    simp only [List.map_cons, bind, Except.bind]
    rw [skipSpace_tail_cons]
    simp only [(opens_value hw (level + 1)).skipSpace, hrest]
    rfl

/-- A member is read up to what follows its value, which decides how to go on. -/
theorem readMembers_member {name : String} {v : Value} (hv : Textual depth v)
    (hread : ReadsBack level room v)
    (hb : 2 * (writeValue level v).length ≤ budget) :
    readMembers (budget + 1) room (memberText level (.str name, v) ++ rest) =
      match skipSpace rest with
      | '\x7d' :: after => .ok ([(.str name, v)], after)
      | ',' :: after => do
        let (es, r) ← readMembers budget room (skipSpace after)
        return ((.str name, v) :: es, r)
      | other => mistaken .comma other := by
  have hskip : skipSpace (' ' :: (writeValue level v ++ rest)) = writeValue level v ++ rest := by
    obtain ⟨c, hc, cs, hcs⟩ := opens_value hv level
    simp [hcs, skipSpace, (first_cases hc).1, show isSpace ' ' = true from rfl]
  have htext : memberText level (.str name, v) ++ rest = '"' :: (name.toList.flatMap escapeChar ++
      '"' :: (':' :: ' ' :: (writeValue level v ++ rest))) := by
    simp [memberText, nameText, stringText]
  have hcolon : ∀ cs, skipSpace (':' :: cs) = ':' :: cs := fun _ => rfl
  rw [htext, readMembers]
  simp only [takeString_escaped, bind, Except.bind, hcolon, hskip, hread budget _ hb]
  rfl

theorem readMembers_written {e : Scalar × Value} {es : Entries}
    (hall : ∀ f ∈ e :: es, (∃ name, f.1 = .str name) ∧ Textual depth f.2 ∧
      ReadsBack (level + 1) room f.2)
    (hb : 2 * ((memberText (level + 1) e).length +
      (tail '\x7d' level (es.map (memberText (level + 1)))).length) ≤ budget) :
    readMembers budget room (memberText (level + 1) e ++
      (tail '\x7d' level (es.map (memberText (level + 1))) ++ rest)) = .ok (e :: es, rest) := by
  induction es generalizing e budget with
  | nil =>
    obtain ⟨⟨name, hname⟩, hv, hread⟩ := hall e List.mem_cons_self
    obtain ⟨k, v⟩ := e
    obtain rfl : k = .str name := hname
    have hlen := length_memberText (level + 1) name v
    obtain ⟨b, rfl⟩ : ∃ b, budget = b + 1 := ⟨budget - 1, by omega⟩
    rw [readMembers_member hv hread (by dsimp only; omega), List.map_nil, skipSpace_tail_nil rfl]
    rfl
  | cons f fs ih =>
    obtain ⟨⟨name, hname⟩, hv, hread⟩ := hall e List.mem_cons_self
    have hopens : Opens (memberText (level + 1) f) :=
      opens_member (hall f (List.mem_cons_of_mem e List.mem_cons_self)).1 (level + 1)
    obtain ⟨k, v⟩ := e
    obtain rfl : k = .str name := hname
    have hlen := length_memberText (level + 1) name v
    rw [List.map_cons, length_tail_cons] at hb
    obtain ⟨b, rfl⟩ : ∃ b, budget = b + 1 := ⟨budget - 1, by omega⟩
    have hrest := @ih b f (fun x hx => hall x (List.mem_cons_of_mem _ hx)) (by omega)
    rw [readMembers_member hv hread (by dsimp only; omega), List.map_cons, skipSpace_tail_cons]
    simp only [hopens.skipSpace, hrest]
    rfl

theorem readValue_items {cs inner : List Char} (hskip : skipSpace cs = inner)
    (hopens : Opens inner) :
    readValue (budget + 1) (room + 1) ('[' :: cs) =
      (readItems budget room inner).map fun (xs, r) => (.seq xs, r) := by
  obtain ⟨c, hc, t, rfl⟩ := hopens
  simp only [readValue, hskip, Nat.add_one_ne_zero, if_false, Nat.add_sub_cancel]
  split
  · rename_i after hafter
    exact absurd (List.cons.inj hafter).1 (first_cases hc).2.1
  · rfl

theorem readValue_members {cs inner : List Char} (hskip : skipSpace cs = inner)
    (hopens : Opens inner) : readValue (budget + 1) (room + 1) ('\x7b' :: cs) =
      (readMembers budget room inner).map fun (es, r) => (.map (Entries.ofPairs es), r) := by
  obtain ⟨c, hc, t, rfl⟩ := hopens
  simp only [readValue, hskip, Nat.add_one_ne_zero, if_false, Nat.add_sub_cancel]
  split
  · rename_i after hafter
    exact absurd (List.cons.inj hafter).1 (first_cases hc).2.2.1
  · rfl

theorem readsBack_seq {items : List Value} (h : ∀ v ∈ items, Textual depth v)
    (ih : ∀ v ∈ items, ReadsBack (level + 1) room v) : ReadsBack level (room + 1) (.seq items) := by
  intro budget rest hb
  cases items with
  | nil =>
    obtain ⟨b, rfl⟩ : ∃ b, budget = b + 1 := ⟨budget - 1, by
      simp only [writeValue, writeItems, bracket, List.length_cons] at hb
      omega⟩
    rfl
  | cons w ws =>
    have htext : writeValue level (.seq (w :: ws)) = '[' :: newLine (level + 1) ++
        writeValue (level + 1) w ++ tail ']' level (ws.map (writeValue (level + 1))) := by
      rw [writeValue, writeItems, bracket_cons, writeItems_eq]
    rw [htext] at hb ⊢
    simp only [List.length_append, List.length_cons] at hb
    obtain ⟨b, rfl⟩ : ∃ b, budget = b + 1 := ⟨budget - 1, by omega⟩
    have hopens := opens_value (h w List.mem_cons_self) (level + 1)
    have hitems : readItems b room (writeValue (level + 1) w ++
        (tail ']' level (ws.map (writeValue (level + 1))) ++ rest)) = .ok (w :: ws, rest) :=
      readItems_written (fun v hv => ⟨h v hv, ih v hv⟩) (by omega)
    simp only [List.cons_append, List.append_assoc]
    rw [readValue_items (hopens.skipSpace _ _) (hopens.append _), hitems]
    rfl

theorem readsBack_map {es : Entries} (hes : es.StringKeyed) (h : ∀ e ∈ es, Textual depth e.2)
    (ih : ∀ e ∈ es, ReadsBack (level + 1) room e.2) : ReadsBack level (room + 1) (.map es) := by
  intro budget rest hb
  cases es with
  | nil =>
    obtain ⟨b, rfl⟩ : ∃ b, budget = b + 1 := ⟨budget - 1, by
      simp only [writeValue, writeMembers, bracket, List.length_cons] at hb
      omega⟩
    rfl
  | cons f fs =>
    have htext : writeValue level (.map (f :: fs)) = '\x7b' :: newLine (level + 1) ++
        memberText (level + 1) f ++ tail '\x7d' level (fs.map (memberText (level + 1))) := by
      rw [writeValue, writeMembers_eq, List.map_cons, bracket_cons]
    rw [htext] at hb ⊢
    simp only [List.length_append, List.length_cons] at hb
    obtain ⟨b, rfl⟩ : ∃ b, budget = b + 1 := ⟨budget - 1, by omega⟩
    have hopens : Opens (memberText (level + 1) f) :=
      opens_member (hes.strings f List.mem_cons_self) (level + 1)
    have hmembers : readMembers b room (memberText (level + 1) f ++
        (tail '\x7d' level (fs.map (memberText (level + 1))) ++ rest)) = .ok (f :: fs, rest) :=
      readMembers_written (fun e he => ⟨hes.strings e he, h e he, ih e he⟩) (by omega)
    simp only [List.cons_append, List.append_assoc]
    rw [readValue_members (hopens.skipSpace _ _) (hopens.append _), hmembers]
    simp only [Except.map, Entries.ofPairs_distinct hes.distinct]

/-- By induction on the value; each pair of brackets takes one of the room. -/
theorem readsBack {v : Value} (h : Textual depth v) (hroom : depth ≤ room) (level : Nat) :
    ReadsBack level room v := by
  induction h generalizing level room with
  | null =>
    intro budget rest hb
    obtain ⟨b, rfl⟩ : ∃ b, budget = b + 1 := ⟨budget - 1, by
      simp only [writeValue, scalarText, String.reduceToList, List.length_cons] at hb
      omega⟩
    rfl
  | bool b =>
    intro budget rest hb
    obtain ⟨n, rfl⟩ : ∃ n, budget = n + 1 := ⟨budget - 1, by
      cases b <;> simp only [writeValue, scalarText] at hb <;> simp at hb <;> omega⟩
    cases b <;> rfl
  | str s =>
    intro budget rest hb
    have htext : writeValue level (.str s) ++ rest =
        '"' :: (s.toList.flatMap escapeChar ++ '"' :: rest) := by
      simp [writeValue, scalarText, stringText, Scalar.text]
    obtain ⟨b, rfl⟩ : ∃ b, budget = b + 1 := ⟨budget - 1, by
      simp only [writeValue, scalarText, stringText, List.length_append, List.length_cons] at hb
      omega⟩
    rw [htext, readValue, takeString_escaped]
    rfl
  | seq hitems ih =>
    obtain ⟨r, rfl⟩ : ∃ r, room = r + 1 := ⟨room - 1, by omega⟩
    exact readsBack_seq hitems fun v hv => ih v hv (Nat.le_of_succ_le_succ hroom) (level + 1)
  | map hes hvalues ih =>
    obtain ⟨r, rfl⟩ : ∃ r, room = r + 1 := ⟨room - 1, by omega⟩
    exact readsBack_map hes hvalues fun e he =>
      ih e he (Nat.le_of_succ_le_succ hroom) (level + 1)

theorem return_not_mem_escaped (c : Char) : '\r' ∉ escapeChar c := by
  unfold escapeChar
  split_ifs with hquote hslash hfeed hreturn htab hform hback hcontrol
  · decide
  · decide
  · decide
  · decide
  · decide
  · decide
  · decide
  · intro h
    simp only [List.mem_cons, Char.reduceEq, false_or] at h
    obtain ⟨m, hm, hdigit⟩ := Text.mem_hexText h
    revert m
    decide
  · intro h
    exact hreturn (List.mem_singleton.mp h).symm

theorem return_not_mem_string (s : String) : '\r' ∉ stringText s := by
  intro h
  simp only [stringText, List.mem_append, List.mem_cons, List.mem_flatMap, List.not_mem_nil,
    or_false, Char.reduceEq, false_or] at h
  obtain ⟨c, -, hc⟩ := h
  exact return_not_mem_escaped c hc

theorem return_not_mem_newLine (level : Nat) : '\r' ∉ newLine level := by
  intro h
  rcases List.mem_cons.mp h with h | h
  · cases h
  · cases List.eq_of_mem_replicate h

theorem return_not_mem_bracket {opening : Char} {parts : List (List Char)} (ho : opening ≠ '\r')
    (hc : closing ≠ '\r') (h : ∀ part ∈ parts, '\r' ∉ part) :
    '\r' ∉ bracket opening closing level parts := by
  have hline := return_not_mem_newLine
  cases parts with
  | nil => simp [bracket, ho.symm, hc.symm]
  | cons part parts =>
    have hpart := h part List.mem_cons_self
    have hparts := fun p hp => h p (List.mem_cons_of_mem part hp)
    simpa [bracket, ho.symm, hc.symm, hline, hpart] using hparts

theorem return_not_mem_value {v : Value} (h : Textual depth v) (level : Nat) :
    '\r' ∉ writeValue level v := by
  induction h generalizing level with
  | null => exact (by decide : '\r' ∉ "null".toList)
  | bool b =>
    have hwords : '\r' ∉ "false".toList ∧ '\r' ∉ "true".toList := by decide
    cases b with
    | false => exact hwords.1
    | true => exact hwords.2
  | str s => exact return_not_mem_string s
  | seq _ ih =>
    rw [writeValue, writeItems_eq]
    refine return_not_mem_bracket (by decide) (by decide) fun part hpart => ?_
    obtain ⟨v, hv, rfl⟩ := List.mem_map.mp hpart
    exact ih v hv (level + 1)
  | map hes _ ih =>
    rw [writeValue, writeMembers_eq]
    refine return_not_mem_bracket (by decide) (by decide) fun part hpart => ?_
    obtain ⟨e, he, rfl⟩ := List.mem_map.mp hpart
    obtain ⟨name, hname⟩ := hes.strings e he
    simp [memberText, hname, nameText, return_not_mem_string, ih e he]

/-- The text of a value is read as the value, also with space behind it, where there is room. -/
theorem read_write {v : Value} (h : Textual depth v) (hroom : depth ≤ room) {after : String}
    (hafter : ∀ c ∈ after.toList, isSpace c = true) : read room (write v ++ after) = .ok v := by
  have htext : (write v ++ after).toList = writeValue 0 v ++ after.toList := by simp [write]
  obtain ⟨c, hc, cs, hcs⟩ := (opens_value h 0).append after.toList
  have hmark : c ≠ '\uFEFF' := (first_cases hc).2.2.2
  have hskip : skipSpace (c :: cs) = c :: cs := by simp [skipSpace, (first_cases hc).1]
  have hend : skipSpace after.toList = [] := List.dropWhile_eq_nil_iff.mpr hafter
  have hread : readValue (2 * (c :: cs).length + 2) room (c :: cs) = .ok (v, after.toList) := by
    rw [← hcs]
    refine readsBack h hroom 0 _ _ ?_
    simp only [List.length_append]
    omega
  rw [read, htext, hcs, readChars]
  · simp only [hskip, hread, hend, bind, Except.bind]
    rfl
  · simpa using fun hc => absurd hc hmark

end Json

end OpenApiIR
