import OpenApiIR.Proofs.Form
import OpenApiIR.Proofs.WellFormed

/-! When a type is nullable. The flag follows the unions: it is up as soon as the fragment, the
member that its union takes the type from, the member that this one takes it from, and so on, holds
a sign of null somewhere above the depth limit. Nothing else raises it, and nothing takes it back.
-/

namespace OpenApiIR

namespace Schema

/-- The list of a union: `anyOf`, unless that is absent or null, and `oneOf` then. -/
def UnionList (g : Graph) (es : Entries) (ms : List Value) : Prop :=
  (es.field "anyOf" ≠ .null ∧ g.view (es.field "anyOf") = .seq ms) ∨
    (es.field "anyOf" = .null ∧ g.view (es.field "oneOf") = .seq ms)

def First (P : Value → Prop) (ms : List Value) (m : Value) : Prop :=
  ∃ before after, ms = before ++ m :: after ∧ P m ∧ ∀ m' ∈ before, ¬ P m'

def TypedOtherwise (g : Graph) (words : List String) (m : Value) : Prop :=
  ∃ es, g.entries? m = some es ∧ ∀ word ∈ words, es.field "type" ≠ .str word

/-- The member that a union takes its type from. -/
inductive Primary (g : Graph) (ms : List Value) (m : Value) : Prop where
  | specific : First (TypedOtherwise g ["null", "object"]) ms m → Primary g ms m
  | fallback : (∀ m' ∈ ms, ¬ TypedOtherwise g ["null", "object"] m') →
      First (TypedOtherwise g ["null"]) ms m → Primary g ms m

/-- From a fragment to the primary member of its union, and on from there. -/
inductive PrimaryPath (g : Graph) : Nat → Value → Value → Prop where
  | nil (v : Value) : PrimaryPath g 0 v v
  | cons {k : Nat} {u v w : Value} {es : Entries} {ms : List Value} : Bare g u es →
      UnionList g es ms → Primary g ms v → PrimaryPath g k v w → PrimaryPath g (k + 1) u w

/-- A sign of null in a fragment itself. -/
inductive SignsNull (g : Graph) (v : Value) : Prop where
  | keyword {es : Entries} : Bare g v es → es.field "nullable" = .bool true → SignsNull g v
  | typeList {es : Entries} {words : List Value} : Bare g v es → es.declares "anyOf" = false →
      es.declares "oneOf" = false → g.view (es.field "type") = .seq words → .str "null" ∈ words →
      SignsNull g v
  | member {es fs : Entries} {ms : List Value} {m : Value} : Bare g v es → UnionList g es ms →
      m ∈ ms → g.entries? m = some fs → fs.field "type" = .str "null" → SignsNull g v

/-- A plain list or map, and the fragment of its items or values. -/
inductive PlainPart (g : Graph) (v : Value) : Value → Prop where
  | items {es : Entries} : Bare g v es → es.declares "anyOf" = false →
      es.declares "oneOf" = false → g.view (es.field "type") = .str "array" →
      g.isMap (es.field "items") = true → PlainPart g v (es.field "items")
  | values {es : Entries} : Bare g v es → es.declares "anyOf" = false →
      es.declares "oneOf" = false → g.view (es.field "type") = .str "object" →
      g.isMap (es.field "additionalProperties") = true →
      PlainPart g v (es.field "additionalProperties")

inductive PlainPath (g : Graph) : Nat → Value → Value → Prop where
  | nil (v : Value) : PlainPath g 0 v v
  | cons {k : Nat} {u v w : Value} : PlainPart g u v → PlainPath g k v w → PlainPath g (k + 1) u w

variable {g : Graph} {v w : Value} {es : Entries}

theorem isNull_iff : v.isNull = true ↔ v = .null := by
  unfold Value.isNull
  split <;> simp_all

theorem unionMembers?_eq_some_iff {ms : List Value} :
    unionMembers? g es = some ms ↔ UnionList g es ms := by
  simp only [unionMembers?, UnionList]
  by_cases h : es.field "anyOf" = .null
  · rw [if_pos (isNull_iff.mpr h), Graph.items?_eq_some_iff]
    simp [h]
  · rw [if_neg fun hn => h (isNull_iff.mp hn), Graph.items?_eq_some_iff]
    simp [h]

theorem isUnion_of_unionList {ms : List Value} (h : UnionList g es ms) : isUnion es = true := by
  have declared : ∀ name, es.field name ≠ .null → es.declares name = true := by
    intro name hn
    rw [Entries.declares, Entries.value?_of_field hn]
    rfl
  unfold isUnion
  rcases h with ⟨hn, _⟩ | ⟨_, hs⟩
  · simp [declared "anyOf" hn]
  · have hn : es.field "oneOf" ≠ .null := by
      intro he
      simp [he] at hs
    simp [declared "oneOf" hn]

theorem find?_eq_some_iff_first {p : Value → Bool} {P : Value → Prop} (hp : ∀ m, p m = true ↔ P m)
    {ms : List Value} {m : Value} : ms.find? p = some m ↔ First P ms m := by
  rw [List.find?_eq_some_iff_append]
  constructor
  · rintro ⟨hm, before, after, rfl, hb⟩
    exact ⟨before, after, rfl, (hp m).mp hm, fun m' hm' h => by
      have := hb m' hm'
      simp [(hp m').mpr h] at this⟩
  · rintro ⟨before, after, rfl, hm, hb⟩
    refine ⟨(hp m).mpr hm, before, after, rfl, fun m' hm' => ?_⟩
    cases h : p m' with
    | true => exact absurd ((hp m').mp h) (hb m' hm')
    | false => rfl

theorem typedOtherwise_null_iff {m : Value} :
    (g.isMap m && !typed g m "null") = true ↔ TypedOtherwise g ["null"] m := by
  cases he : g.entries? m with
  | none => simp [TypedOtherwise, Graph.isMap, he]
  | some es => simp [TypedOtherwise, Graph.isMap, he, typed, ← hasType_iff]

def specific (g : Graph) (m : Value) : Bool :=
  g.isMap m && !typed g m "null" && !typed g m "object"

theorem specific_iff {m : Value} :
    specific g m = true ↔ TypedOtherwise g ["null", "object"] m := by
  cases he : g.entries? m with
  | none => simp [specific, TypedOtherwise, Graph.isMap, he]
  | some es => simp [specific, TypedOtherwise, Graph.isMap, he, typed, ← hasType_iff]

theorem find?_candidates (g : Graph) (ms : List Value) :
    (candidates g ms).find? (fun m => !typed g m "object") = ms.find? (specific g) := by
  rw [candidates, List.find?_filter]
  congr 1
  funext m
  simp [specific]

theorem choice?_eq_some_iff {ms : List Value} {m : Value} :
    choice? g (candidates g ms) = some m ↔ Primary g ms m := by
  have hfallback : (candidates g ms).head? = ms.find? fun m => g.isMap m && !typed g m "null" :=
    List.head?_filter
  rw [choice?, find?_candidates, hfallback, Option.or_eq_some_iff,
    find?_eq_some_iff_first fun _ => specific_iff,
    find?_eq_some_iff_first fun _ => typedOtherwise_null_iff, List.find?_eq_none]
  simp only [specific_iff]
  constructor
  · rintro (h | ⟨hn, h⟩)
    · exact .specific h
    · exact .fallback hn h
  · rintro (h | ⟨hn, h⟩)
    · exact Or.inl h
    · exact Or.inr ⟨hn, h⟩

theorem form_eq_like_iff : form g v = .like w ↔
    ∃ es ms, Bare g v es ∧ UnionList g es ms ∧ Primary g ms w := by
  constructor
  · intro h
    rcases form_cases g v with ⟨es, hb, ho⟩ | ⟨t, ht, _⟩
    · rw [h] at ho
      cases ho with
      | member _ hm hc =>
        exact ⟨es, _, hb, unionMembers?_eq_some_iff.mp hm, choice?_eq_some_iff.mp hc⟩
    · simp [h] at ht
  · rintro ⟨es, ms, hb, hu, hp⟩
    rw [form_bare hb]
    exact (Opens.member (isUnion_of_unionList hu) (unionMembers?_eq_some_iff.mpr hu)
      (choice?_eq_some_iff.mpr hp)).bareForm_eq

theorem typed_null_iff {m : Value} : typed g m "null" = true ↔
    ∃ fs, g.entries? m = some fs ∧ fs.field "type" = .str "null" := by
  cases he : g.entries? m with
  | none => simp [typed, he]
  | some fs => simp [typed, he, hasType_iff]

theorem unionSign_iff : unionSign g es = true ↔
    ∃ ms, UnionList g es ms ∧ ∃ m ∈ ms, typed g m "null" = true := by
  simp only [unionSign, Option.any_eq_true, List.any_eq_true, unionMembers?_eq_some_iff]

theorem listSign_iff : listSign g es = true ↔
    ∃ words, g.view (es.field "type") = .seq words ∧ .str "null" ∈ words := by
  simp only [listSign, Option.any_eq_true, Graph.items?_eq_some_iff]
  apply exists_congr
  intro words
  simp [Value.str?_eq_some_iff]

theorem isTrue_iff : v.isTrue = true ↔ v = .bool true := by
  unfold Value.isTrue
  split <;> simp_all

theorem sign_iff : sign g v = true ↔ SignsNull g v := by
  constructor
  · intro h
    obtain ⟨es, hb⟩ := exists_bare_of_sign h
    rw [sign_bare hb, bareSign, Bool.or_eq_true] at h
    rcases h with h | h
    · cases hu : isUnion es with
      | true =>
        rw [hu, if_pos rfl] at h
        obtain ⟨ms, hl, m, hm, ht⟩ := unionSign_iff.mp h
        obtain ⟨fs, he, hn⟩ := typed_null_iff.mp ht
        exact .member hb hl hm he hn
      | false =>
        rw [hu, if_neg Bool.false_ne_true] at h
        obtain ⟨words, hv, hw⟩ := listSign_iff.mp h
        obtain ⟨hany, hone⟩ := Bool.or_eq_false_iff.mp hu
        exact .typeList hb hany hone hv hw
    · exact .keyword hb (isTrue_iff.mp h)
  · intro h
    cases h with
    | keyword hb hn => simp [sign_bare hb, bareSign, isTrue_iff.mpr hn]
    | typeList hb hany hone hv hw =>
      have hu : isUnion _ = false := Bool.or_eq_false_iff.mpr ⟨hany, hone⟩
      simp [sign_bare hb, bareSign, hu, listSign_iff.mpr ⟨_, hv, hw⟩]
    | member hb hl hm he hn =>
      have hs := unionSign_iff.mpr ⟨_, hl, _, hm, typed_null_iff.mpr ⟨_, he, hn⟩⟩
      simp [sign_bare hb, bareSign, isUnion_of_unionList hl, hs]

theorem nullable_step {inner : Value → TypeRef} : (stepType g inner v).nullable = true ↔
    SignsNull g v ∨ ∃ w, form g v = .like w ∧ (inner w).nullable = true := by
  rw [stepType_eq, TypeRef.nullable_orNullable, Bool.or_eq_true, sign_iff, or_comm]
  apply or_congr_right
  cases hf : form g v with
  | known t =>
    have ht : t.nullable = false := nullable_known hf
    simp [Form.type, ht]
  | like w => simp [Form.type]
  | list w => simp [Form.type, TypeRef.listOf, TypeRef.nullable]
  | map w => simp [Form.type, TypeRef.mapOf, TypeRef.nullable]

/-- Each level of fragments adds one member to the path, above the depth limit. -/
theorem nullable_within (g : Graph) (levels : Nat) (v : Value) :
    (typeWithin g levels v).nullable = true ↔
      ∃ k w, k < levels ∧ PrimaryPath g k v w ∧ SignsNull g w := by
  induction levels generalizing v with
  | zero => simp [typeWithin, TypeRef.any, TypeRef.plain, TypeRef.nullable]
  | succ levels ih =>
    rw [typeWithin, nullable_step]
    constructor
    · rintro (h | ⟨u, hf, hn⟩)
      · exact ⟨0, v, Nat.succ_pos levels, .nil v, h⟩
      · obtain ⟨es, ms, hb, hl, hp⟩ := form_eq_like_iff.mp hf
        obtain ⟨k, w, hk, hpath, hs⟩ := (ih u).mp hn
        exact ⟨k + 1, w, Nat.succ_lt_succ hk, .cons hb hl hp hpath, hs⟩
    · rintro ⟨k, w, hk, hpath, hs⟩
      cases hpath with
      | nil => exact Or.inl hs
      | cons hb hl hp hpath =>
        have hf := form_eq_like_iff.mpr ⟨_, _, hb, hl, hp⟩
        exact Or.inr ⟨_, hf, (ih _).mpr ⟨_, w, Nat.lt_of_succ_lt_succ hk, hpath, hs⟩⟩

theorem part_within (h : PlainPart g v w) (levels : Nat) :
    (typeWithin g (levels + 1) v).items = typeWithin g levels w ::
    (typeWithin g levels w).items := by
  rw [typeWithin, stepType_eq, TypeRef.items_orNullable]
  cases h with
  | items hb hany hone ht hi =>
    have hu : isUnion _ = false := Bool.or_eq_false_iff.mpr ⟨hany, hone⟩
    rw [form_bare hb, (Opens.items hu ht hi).bareForm_eq]
    rfl
  | values hb hany hone ht hi =>
    have hu : isUnion _ = false := Bool.or_eq_false_iff.mpr ⟨hany, hone⟩
    rw [form_bare hb, (Opens.values hu ht hi).bareForm_eq]
    rfl

theorem parts_within {k : Nat} (h : PlainPath g k v w) (levels : Nat) :
    (typeWithin g (levels + k) v :: (typeWithin g (levels + k) v).items)[k]? =
      some (typeWithin g levels w) := by
  induction h with
  | nil v => rfl
  | @cons k u v w hp _ ih =>
    rw [List.getElem?_cons_succ, ← Nat.add_assoc, part_within hp, ih]

/-- The flag of a type, and those of the items of plain lists and maps inside one another. -/
theorem nullable_iff (g : Graph) (v : Value) :
    ((typeOf g v).nullable = true ↔ ∃ k w, k ≤ depthLimit ∧ PrimaryPath g k v w ∧ SignsNull g w) ∧
    ∀ d w, PlainPath g (d + 1) v w → d ≤ depthLimit → ∃ t, (typeOf g v).items[d]? = some t ∧
      (t.nullable = true ↔
        ∃ k u, d + 1 + k ≤ depthLimit ∧ PrimaryPath g k w u ∧ SignsNull g u) := by
  constructor
  · rw [typeOf, nullable_within]
    simp only [Nat.lt_succ_iff]
  · intro d w hpath hd
    obtain ⟨levels, hlevels⟩ : ∃ levels, levels + (d + 1) = depthLimit + 1 :=
      ⟨depthLimit - d, by omega⟩
    have hitem := parts_within hpath levels
    rw [hlevels, List.getElem?_cons_succ] at hitem
    refine ⟨typeWithin g levels w, hitem, ?_⟩
    rw [nullable_within]
    constructor
    · rintro ⟨k, u, hk, h⟩
      exact ⟨k, u, by omega, h⟩
    · rintro ⟨k, u, hk, h⟩
      exact ⟨k, u, by omega, h⟩

/-- A tag is a name, or null, or an object that nobody reads. -/
def tagName : Value := .map [(.str "oneOf", .seq [
  .map [(.str "type", .str "null")], .map [(.str "type", .str "string")]])]

def tag : Value := .map [(.str "anyOf", .seq [.map [(.str "type", .str "object")], tagName])]

def tagList : Value := .map [(.str "type", .str "array"), (.str "items", tag)]

/-- The sign stands two unions deep, beside the member that gives the type. -/
theorem tag_list_item_nullable : PlainPath .empty 1 tagList tag ∧
    ∃ t, (typeOf .empty tagList).items[0]? = some t ∧ t.nullable = true := by
  have hlist : PlainPath .empty 1 tagList tag :=
    .cons (.items ⟨rfl, by decide⟩ (by decide) (by decide) rfl (by decide)) (.nil tag)
  have hprimary : Primary .empty [.map [(.str "type", .str "object")], tagName] tagName := by
    refine .specific ⟨[.map [(.str "type", .str "object")]], [], rfl, ⟨_, rfl, by decide⟩, ?_⟩
    rintro m hm ⟨es, he, hother⟩
    obtain rfl := List.mem_singleton.mp hm
    obtain rfl := Option.some.inj he
    exact hother "object" (by decide) rfl
  have hpath : PrimaryPath .empty 1 tag tagName :=
    .cons ⟨rfl, by decide⟩ (Or.inl ⟨by decide, rfl⟩) hprimary (.nil tagName)
  have hsign : SignsNull .empty tagName :=
    .member ⟨rfl, by decide⟩ (Or.inr ⟨by decide, rfl⟩) List.mem_cons_self rfl rfl
  obtain ⟨t, ht, hn⟩ := (nullable_iff .empty tagList).2 0 tag hlist (by decide)
  exact ⟨hlist, t, ht, hn.mpr ⟨1, tagName, by decide, hpath, hsign⟩⟩

end Schema

end OpenApiIR
