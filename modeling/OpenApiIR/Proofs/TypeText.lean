import OpenApiIR.Proofs.WellFormed

/-! Texts of types. A type is shown as a word, then the item of a list or a map in angle brackets,
then a question mark if it is nullable. No word holds a sign, so a text tells where each of its
parts ends. Main statement: where the names of models are words that no other type is shown by,
types with one text are one type. -/

namespace OpenApiIR

namespace TypeRef

/-- What stands around words in the text of a type. -/
def signs : List Char := ['<', '>', ',', '?', ' ']

def SignFree (w : List Char) : Prop := ∀ c ∈ w, c ∉ signs

instance (w : List Char) : Decidable (SignFree w) := List.decidableBAll (fun c => c ∉ signs) w

/-- The words of types without an item. Lists and maps have words too, but never without a bracket.
-/
def ownWords : List String := ["String", "Int", "Double", "Bool", "DateTime", "Any"]

structure PlainName (name : String) : Prop where
  signFree : SignFree name.toList
  foreign : name ∉ ownWords

/-- At every level the parts fit, as they do in resolved types, and a name is plain. -/
def Legible (t : TypeRef) : Prop :=
  ∀ s ∈ t :: t.items, s.PartsFit ∧ ∀ name ∈ s.refName, PlainName name

instance (name : String) : Decidable (PlainName name) :=
  decidable_of_iff (SignFree name.toList ∧ name ∉ ownWords)
    ⟨fun h => ⟨h.1, h.2⟩, fun h => ⟨h.signFree, h.foreign⟩⟩

instance (t : TypeRef) : Decidable t.Legible :=
  inferInstanceAs (Decidable (∀ s ∈ t :: t.items, _ ∧ ∀ name ∈ s.refName, _))

end TypeRef

namespace TypeKind

theorem mem_all (k : TypeKind) : k ∈ all := by
  cases k <;> decide

/-- All kinds but models have a title of their own. -/
theorem title_inj {k l : TypeKind} (hk : k ≠ .model) (hl : l ≠ .model) (h : k.title = l.title) :
    k = l := by
  have hall : ∀ k ∈ all, ∀ l ∈ all, k ≠ .model → l ≠ .model → k.title = l.title → k = l := by decide
  exact hall k (mem_all k) l (mem_all l) hk hl h

theorem title_signFree (k : TypeKind) : TypeRef.SignFree k.title.toList := by
  cases k <;> decide

theorem title_own {k : TypeKind} (hlist : k ≠ .list) (hmap : k ≠ .map) :
    k.title ∈ TypeRef.ownWords := by
  cases k with
  | list => exact absurd rfl hlist
  | map => exact absurd rfl hmap
  | _ => decide

end TypeKind

namespace TypeRef

variable {s t : TypeRef} {q r : List Char} {name : String}

theorem Legible.parts (h : t.Legible) : t.PartsFit := (h t List.mem_cons_self).1

theorem Legible.plainName (h : t.Legible) (hn : t.refName = some name) : PlainName name :=
  (h t List.mem_cons_self).2 name hn

theorem Legible.item {k : TypeKind} {n : Bool} {ref : Option String}
    (h : Legible ⟨k, n, some t, ref⟩) : t.Legible := by
  intro s hs
  exact h s (List.mem_cons_of_mem _ hs)

/-- A type is a chain of items that ends in one without. -/
theorem chain_induction {motive : TypeRef → Prop}
    (bare : ∀ k n ref, motive ⟨k, n, none, ref⟩)
    (around : ∀ k n t ref, motive t → motive ⟨k, n, some t, ref⟩) : ∀ t, motive t
  | ⟨k, n, none, ref⟩ => bare k n ref
  | ⟨k, n, some t, ref⟩ => around k n t ref (chain_induction bare around t)

/-! What the text of a type is made of. -/

/-- The types whose parts fit, by the form of their text. -/
inductive Outline : TypeRef → Prop where
  | plain {k : TypeKind} (n : Bool) : k ≠ .list → k ≠ .map → k ≠ .model → Outline ⟨k, n, none, none⟩
  | model (n : Bool) {name : String} : name ≠ "" → Outline ⟨.model, n, none, some name⟩
  | list (n : Bool) (item : TypeRef) : Outline ⟨.list, n, some item, none⟩
  | map (n : Bool) (value : TypeRef) : Outline ⟨.map, n, some value, none⟩

theorem PartsFit.outline (h : t.PartsFit) : t.Outline := by
  obtain ⟨k, n, item, _ | name⟩ := t
  · have hmodel : k ≠ .model := h.kind_of_no_name rfl
    cases item with
    | none =>
      obtain ⟨hlist, hmap⟩ := h.kind_of_no_item rfl
      exact .plain n hlist hmap hmodel
    | some u =>
      rcases h.item.mp rfl with hk | hk
      · obtain rfl : k = .list := hk
        exact .list n u
      · obtain rfl : k = .map := hk
        exact .map n u
  · obtain rfl : k = .model := h.kind_of_name rfl
    obtain rfl : item = none := h.item_of_name rfl
    exact .model n fun he => h.named (congrArg some he)

def word (t : TypeRef) : String := t.refName.getD t.kind.title

def keyText : TypeKind → List Char
  | .map => "String, ".toList
  | _ => []

def questionMark (nullable : Bool) : List Char := if nullable then ['?'] else []

/-- What stands after the word, up to the end of what follows the type. -/
def afterWord (t : TypeRef) (rest : List Char) : List Char :=
  match t.item with
  | some u =>
    '<' :: (keyText t.kind ++ (u.display.toList ++ '>' :: (questionMark t.nullable ++ rest)))
  | none => questionMark t.nullable ++ rest

theorem toList_display {n : Bool} {text : String}
    (h : t.display = if n then text ++ "?" else text) :
    t.display.toList = text.toList ++ questionMark n := by
  rw [h]
  cases n <;> simp [questionMark]

theorem display_append (h : t.PartsFit) (rest : List Char) :
    t.display.toList ++ rest = t.word.toList ++ t.afterWord rest := by
  have hclose : ">".toList = ['>'] := rfl
  cases h.outline with
  | @plain k n hlist hmap hmodel =>
    have htext : display ⟨k, n, none, none⟩ = if n then k.title ++ "?" else k.title := by
      cases k with
      | list => exact absurd rfl hlist
      | map => exact absurd rfl hmap
      | model => exact absurd rfl hmodel
      | _ => rfl
    rw [toList_display htext, List.append_assoc]
    rfl
  | @model n name hname =>
    have htext : display ⟨.model, n, none, some name⟩ = if n then name ++ "?" else name := by
      rw [display, if_neg hname]
    rw [toList_display htext, List.append_assoc]
    rfl
  | list n item =>
    have htext : display ⟨.list, n, some item, none⟩ =
        if n then "List<" ++ item.display ++ ">" ++ "?" else "List<" ++ item.display ++ ">" := rfl
    have hopen : "List<".toList = "List".toList ++ ['<'] := rfl
    simp only [toList_display htext, String.toList_append, hopen, hclose, List.append_assoc]
    rfl
  | map n value =>
    have htext : display ⟨.map, n, some value, none⟩ =
        if n then "Map<String, " ++ value.display ++ ">" ++ "?"
        else "Map<String, " ++ value.display ++ ">" := rfl
    have hopen : "Map<String, ".toList = "Map".toList ++ '<' :: "String, ".toList := rfl
    simp only [toList_display htext, String.toList_append, hopen, hclose, List.append_assoc]
    rfl

/-! Where the parts of a text end. -/

/-- A sign comes first, or nothing. -/
def Ends (rest : List Char) : Prop := ∀ c ∈ rest.head?, c ∈ signs

/-- What follows a whole type: the bracket that closes around it, or nothing. -/
def Closes (rest : List Char) : Prop := ∀ c ∈ rest.head?, c = '>'

theorem closes_nil : Closes [] := by
  intro c hc
  cases hc

theorem closes_bracket (rest : List Char) : Closes ('>' :: rest) := by
  intro c hc
  exact (Option.some.inj hc).symm

theorem ends_marked (h : Closes r) (n : Bool) : Ends (questionMark n ++ r) := by
  intro c hc
  cases n with
  | true =>
    obtain rfl := Option.some.inj hc
    decide
  | false =>
    rw [h c hc]
    decide

theorem ends_afterWord (h : Closes r) (t : TypeRef) : Ends (t.afterWord r) := by
  obtain ⟨k, n, _ | u, ref⟩ := t
  · exact ends_marked h n
  · intro c hc
    obtain rfl := Option.some.inj hc
    decide

theorem eq_nil_of_ends {w : List Char} (hw : SignFree w) (h : Ends (w ++ r)) : w = [] := by
  cases w with
  | nil => rfl
  | cons c w => exact absurd (h c rfl) (hw c List.mem_cons_self)

theorem words_apart {w w' : List Char} (hw : SignFree w) (hw' : SignFree w')
    (hq : Ends q) (hr : Ends r) (h : w ++ q = w' ++ r) : w = w' ∧ q = r := by
  rcases List.append_eq_append_iff.mp h with ⟨more, rfl, rfl⟩ | ⟨more, rfl, rfl⟩
  · obtain rfl := eq_nil_of_ends (fun c hc => hw' c (List.mem_append_right w hc)) hq
    simp
  · obtain rfl := eq_nil_of_ends (fun c hc => hw c (List.mem_append_right w' hc)) hr
    simp

theorem marks_apart {n n' : Bool} (hq : Closes q) (hr : Closes r)
    (h : questionMark n ++ q = questionMark n' ++ r) : n = n' ∧ q = r := by
  cases n <;> cases n'
  · exact ⟨rfl, h⟩
  · obtain rfl : q = '?' :: r := h
    exact absurd (hq '?' rfl) (by decide)
  · obtain rfl : '?' :: q = r := h
    exact absurd (hr '?' rfl) (by decide)
  · exact ⟨rfl, (List.cons.inj h).2⟩

theorem marked_ne_bracket (h : Closes r) (n : Bool) (rest : List Char) :
    questionMark n ++ r ≠ '<' :: rest := by
  intro heq
  cases n with
  | true => cases heq
  | false =>
    obtain rfl : r = '<' :: rest := heq
    exact absurd (h '<' rfl) (by decide)

/-! What a word tells. -/

theorem word_of_name (h : t.refName = some name) : t.word = name := by
  rw [word, h]
  rfl

theorem word_of_no_name (h : t.refName = none) : t.word = t.kind.title := by
  rw [word, h]
  rfl

theorem Legible.word_signFree (h : t.Legible) : SignFree t.word.toList := by
  cases hn : t.refName with
  | none =>
    rw [word_of_no_name hn]
    exact t.kind.title_signFree
  | some name =>
    rw [word_of_name hn]
    exact (h.plainName hn).signFree

/-- A model may be named `List`, but then a list has a bracket where the model has none. -/
theorem name_ne_title (hs : s.Legible) (ht : t.PartsFit) (hname : s.refName = some name)
    (hnone : t.refName = none) (hi : s.item.isSome = t.item.isSome) : s.word ≠ t.word := by
  intro h
  rw [word_of_name hname, word_of_no_name hnone] at h
  rw [hs.parts.item_of_name hname] at hi
  have hbare : t.item = none := by simpa using hi
  obtain ⟨hlist, hmap⟩ := ht.kind_of_no_item hbare
  exact (hs.plainName hname).foreign (h ▸ TypeKind.title_own hlist hmap)

/-- Of two types with an item, or two without one, the word tells the kind and the name. -/
theorem word_tells (hs : s.Legible) (ht : t.Legible) (hi : s.item.isSome = t.item.isSome)
    (h : s.word = t.word) : s.kind = t.kind ∧ s.refName = t.refName := by
  cases hsn : s.refName with
  | none =>
    cases htn : t.refName with
    | none =>
      rw [word_of_no_name hsn, word_of_no_name htn] at h
      have hkind := TypeKind.title_inj (hs.parts.kind_of_no_name hsn)
        (ht.parts.kind_of_no_name htn) h
      exact ⟨hkind, rfl⟩
    | some name => exact absurd h.symm (name_ne_title ht hs.parts htn hsn hi.symm)
  | some name =>
    cases htn : t.refName with
    | none => exact absurd h (name_ne_title hs ht.parts hsn htn hi)
    | some other =>
      rw [word_of_name hsn, word_of_name htn] at h
      rw [hs.parts.kind_of_name hsn, ht.parts.kind_of_name htn, h]
      exact ⟨rfl, rfl⟩

theorem split_at_word (hs : s.Legible) (ht : t.Legible) (hq : Closes q) (hr : Closes r)
    (h : s.display.toList ++ q = t.display.toList ++ r) :
    s.word = t.word ∧ s.afterWord q = t.afterWord r := by
  rw [display_append hs.parts, display_append ht.parts] at h
  obtain ⟨hword, hafter⟩ :=
    words_apart hs.word_signFree ht.word_signFree (ends_afterWord hq s) (ends_afterWord hr t) h
  exact ⟨String.toList_inj.mp hword, hafter⟩

/-- A text begins with one type. What follows is left open, since an item is followed by the
brackets and question marks of all the types around it. -/
theorem display_append_inj (hs : s.Legible) (ht : t.Legible) (hq : Closes q) (hr : Closes r)
    (h : s.display.toList ++ q = t.display.toList ++ r) : s = t ∧ q = r := by
  induction s using chain_induction generalizing t q r with
  | bare k n ref =>
    obtain ⟨hword, hafter⟩ := split_at_word hs ht hq hr h
    obtain ⟨k', n', _ | u', ref'⟩ := t
    · obtain ⟨hkind, href⟩ := word_tells hs ht rfl hword
      obtain rfl : k = k' := hkind
      obtain rfl : ref = ref' := href
      obtain ⟨rfl, rfl⟩ := marks_apart hq hr hafter
      exact ⟨rfl, rfl⟩
    · exact absurd hafter (marked_ne_bracket hq n _)
  | around k n u ref ih =>
    obtain ⟨hword, hafter⟩ := split_at_word hs ht hq hr h
    obtain ⟨k', n', _ | u', ref'⟩ := t
    · exact absurd hafter.symm (marked_ne_bracket hr n' _)
    · obtain ⟨hkind, href⟩ := word_tells hs ht rfl hword
      obtain rfl : k = k' := hkind
      obtain rfl : ref = ref' := href
      have hitems := List.append_cancel_left (List.cons.inj hafter).2
      obtain ⟨rfl, hclosed⟩ := ih hs.item ht.item (closes_bracket _) (closes_bracket _) hitems
      obtain ⟨rfl, rfl⟩ := marks_apart hq hr (List.cons.inj hclosed).2
      exact ⟨rfl, rfl⟩

/-- Display loses nothing: neither kinds nor items, names nor question marks at any level. -/
theorem display_loses_nothing (hs : s.Legible) (ht : t.Legible) :
    s.display = t.display ↔ s = t := by
  constructor
  · intro h
    have htext : s.display.toList ++ [] = t.display.toList ++ [] := by rw [h]
    exact (display_append_inj hs ht closes_nil closes_nil htext).1
  · rintro rfl
    rfl

/-- `Map<String, List<Map>?>` and `Map<String, List<Map>>?`, of models named `Map`. -/
theorem nullable_item_told_apart :
    (mapOf ((listOf (model "Map")).orNullable true)).Legible ∧
      ((mapOf (listOf (model "Map"))).orNullable true).Legible ∧
      (mapOf ((listOf (model "Map")).orNullable true)).display ≠
        ((mapOf (listOf (model "Map"))).orNullable true).display := by
  have hinner : (mapOf ((listOf (model "Map")).orNullable true)).Legible := by decide
  have houter : ((mapOf (listOf (model "Map"))).orNullable true).Legible := by decide
  refine ⟨hinner, houter, ?_⟩
  rw [ne_eq, display_loses_nothing hinner houter]
  decide

/-- A name that holds signs may be shown as a list is. -/
example : (model "List<Pet>").display = (listOf (model "Pet")).display := by decide

end TypeRef

end OpenApiIR
