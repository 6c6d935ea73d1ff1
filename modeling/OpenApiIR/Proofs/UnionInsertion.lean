import OpenApiIR.Proofs.Nullability
import OpenApiIR.Proofs.Place

/-! One more member in a union. What is no map is passed over, a null leaves a sign and nothing
else, and an object or a later member is not taken as long as there is a member that is preferred to
it. -/

namespace OpenApiIR

namespace Entries

theorem value?_put (es : Entries) (name : String) (w : Value) (name' : String) :
    (es.put (.str name) w).value? (.str name') =
      if name' = name then some w else es.value? (.str name') := by
  induction es with
  | nil =>
    by_cases h : name' = name
    · simp [put, value?, h, Scalar.sameKey_str]
    · simp [put, value?, h, Scalar.sameKey_str, Ne.symm h]
  | cons e rest ih =>
    obtain ⟨k, v⟩ := e
    by_cases hk : k.sameKey (.str name) = true
    · obtain rfl := (Scalar.str_sameKey_iff name k).mp hk
      by_cases h : name' = name
      · simp [put, value?, h, Scalar.sameKey_str]
      · simp [put, value?, h, Scalar.sameKey_str, Ne.symm h]
    · by_cases hk' : k.sameKey (.str name') = true
      · have h : name' ≠ name := by
          rintro rfl
          exact hk hk'
        simp [put, value?, hk, hk', h]
      · simpa [put, value?, hk, hk'] using ih

theorem field_put_self (es : Entries) (name : String) (w : Value) :
    (es.put (.str name) w).field name = w := by
  rw [field, value?_put, if_pos rfl]
  rfl

theorem field_put_of_ne {name name' : String} (h : name' ≠ name) (es : Entries) (w : Value) :
    (es.put (.str name) w).field name' = es.field name' := by
  rw [field, field, value?_put, if_neg h]

end Entries

namespace Schema

def withMembers (es : Entries) (ms : List Value) : Value :=
  .map (es.put (.str (unionKey es).name) (.seq ms))

variable {g : Graph} {v m : Value} {es : Entries} {ms ms' left right : List Value}

theorem bare_withMembers (hb : Bare g v es) (ms' : List Value) :
    Bare g (withMembers es ms') (es.put (.str (unionKey es).name) (.seq ms')) := by
  refine ⟨rfl, ?_⟩
  rw [Entries.value?_put, if_neg (by cases unionKey es <;> decide)]
  exact hb.2

theorem unionList_withMembers (hl : UnionList g es ms) (ms' : List Value) :
    UnionList g (es.put (.str (unionKey es).name) (.seq ms')) ms' := by
  rcases hl with ⟨hn, _⟩ | ⟨hn, _⟩
  · have hkey : unionKey es = .anyOf := if_neg fun h => hn (isNull_iff.mp h)
    rw [hkey]
    refine Or.inl ⟨?_, ?_⟩
    · simp [UnionKey.name, Entries.field_put_self]
    · simp [UnionKey.name, Entries.field_put_self]
  · have hkey : unionKey es = .oneOf := if_pos (isNull_iff.mpr hn)
    rw [hkey]
    refine Or.inr ⟨?_, ?_⟩
    · exact (Entries.field_put_of_ne (by decide) es _).trans hn
    · simp [UnionKey.name, Entries.field_put_self]

theorem typeOf_union (hb : Bare g v es) (hl : UnionList g es ms) :
    typeOf g v = (memberType g (typeWithin g depthLimit) ms).orNullable
      (ms.any (typed g · "null") || (es.field "nullable").isTrue) := by
  rw [typeOf, typeWithin,
    stepType_union _ hb (isUnion_of_unionList hl) (unionMembers?_eq_some_iff.mpr hl)]

theorem typeOf_withMembers (hb : Bare g v es) (hl : UnionList g es ms) (ms' : List Value) :
    typeOf g (withMembers es ms') = (memberType g (typeWithin g depthLimit) ms').orNullable
      (ms'.any (typed g · "null") || (es.field "nullable").isTrue) := by
  rw [typeOf_union (bare_withMembers hb ms') (unionList_withMembers hl ms'),
    Entries.field_put_of_ne (by cases unionKey es <;> decide)]

/-- A member that is not chosen can only raise the flag. -/
theorem typeOf_inserted (hb : Bare g v es) (hl : UnionList g es (left ++ right))
    (hc : choice? g (candidates g (left ++ m :: right)) =
      choice? g (candidates g (left ++ right))) :
    typeOf g (withMembers es (left ++ m :: right)) =
      (typeOf g v).orNullable (typed g m "null") := by
  have hmember : memberType g (typeWithin g depthLimit) (left ++ m :: right) =
      memberType g (typeWithin g depthLimit) (left ++ right) := by
    rw [memberType, memberType, hc]
  rw [typeOf_withMembers hb hl, typeOf_union hb hl, hmember, TypeRef.orNullable_orNullable]
  congr 1
  simp only [List.any_append, List.any_cons]
  ac_rfl

theorem candidates_inserted (h : (g.isMap m && !typed g m "null") = false)
    (left right : List Value) :
    candidates g (left ++ m :: right) = candidates g (left ++ right) := by
  simp only [candidates, List.filter_append, List.filter_cons, h, Bool.false_eq_true, if_false]

theorem choice?_of_specific (h : ∃ m ∈ ms, specific g m = true) :
    choice? g (candidates g ms) = ms.find? (specific g) := by
  obtain ⟨m, hm⟩ := Option.isSome_iff_exists.mp (List.find?_isSome.mpr h)
  rw [choice?, find?_candidates, hm, Option.some_or]

theorem choice?_inserted_object (ho : typed g m "object" = true)
    (h : ∃ m' ∈ left ++ right, specific g m' = true) :
    choice? g (candidates g (left ++ m :: right)) = choice? g (candidates g (left ++ right)) := by
  have hm : ¬ specific g m = true := by simp [specific, ho]
  have hmore : ∃ m' ∈ left ++ m :: right, specific g m' = true := by
    obtain ⟨m', hm', hs⟩ := h
    exact ⟨m', (List.sublist_cons_self m right).append_left left |>.mem hm', hs⟩
  rw [choice?_of_specific hmore, choice?_of_specific h, List.find?_append, List.find?_append,
    List.find?_cons_of_neg hm]

/-- Behind the first member that is preferred nothing is looked for. -/
theorem choice?_inserted_later (h : ∃ m' ∈ left, specific g m' = true) (rest rest' : List Value) :
    choice? g (candidates g (left ++ rest)) = choice? g (candidates g (left ++ rest')) := by
  have hfirst : ∀ rest, choice? g (candidates g (left ++ rest)) = left.find? (specific g) := by
    intro rest
    obtain ⟨found, hfound⟩ := Option.isSome_iff_exists.mp (List.find?_isSome.mpr h)
    obtain ⟨m', hm', hs⟩ := h
    rw [choice?_of_specific ⟨m', List.mem_append_left _ hm', hs⟩, List.find?_append, hfound,
      Option.some_or]
  rw [hfirst, hfirst]

theorem typed_null_of_object (h : typed g m "object" = true) : typed g m "null" = false := by
  unfold typed at *
  cases he : g.entries? m with
  | none => simp [he] at h
  | some es =>
    rw [he] at h
    simp [hasType, (hasType_iff es "object").mp h, Value.str?]

/-- A fragment with one more member anywhere in the list of its union. -/
theorem union_insertion (hb : Bare g v es) (hl : UnionList g es (left ++ right)) (m : Value) :
    (g.isMap m = false → typeOf g (withMembers es (left ++ m :: right)) = typeOf g v) ∧
    (typed g m "null" = true →
      typeOf g (withMembers es (left ++ m :: right)) = (typeOf g v).orNullable true) ∧
    (typed g m "object" = true → (∃ m' ∈ left ++ right, TypedOtherwise g ["null", "object"] m') →
      typeOf g (withMembers es (left ++ m :: right)) = typeOf g v) ∧
    (TypedOtherwise g ["null"] m → (∃ m' ∈ left, TypedOtherwise g ["null", "object"] m') →
      typeOf g (withMembers es (left ++ m :: right)) = typeOf g v) := by
  simp only [← specific_iff]
  -- Once the choice is the same, what is left to see is whether the new member is a null.
  have unchanged : typed g m "null" = false →
      choice? g (candidates g (left ++ m :: right)) = choice? g (candidates g (left ++ right)) →
      typeOf g (withMembers es (left ++ m :: right)) = typeOf g v := by
    intro hnull hc
    rw [typeOf_inserted hb hl hc, hnull, TypeRef.orNullable_false]
  refine ⟨?_, ?_, ?_, ?_⟩
  · intro hm
    have hnull : typed g m "null" = false := by
      simp only [typed, Graph.isMap_eq_false_iff.mp hm]
    apply unchanged hnull
    rw [candidates_inserted (by simp [hm])]
  · intro hnull
    rw [typeOf_inserted hb hl (by rw [candidates_inserted (by simp [hnull])]), hnull]
  · intro hobject hspecific
    exact unchanged (typed_null_of_object hobject) (choice?_inserted_object hobject hspecific)
  · intro hother hspecific
    have hcandidate := typedOtherwise_null_iff.mpr hother
    have hnull : typed g m "null" = false := by
      simpa using (Bool.and_eq_true_iff.mp hcandidate).2
    exact unchanged hnull (choice?_inserted_later hspecific _ _)

def typedMap (word : String) : Value := .map [(.str "type", .str word)]

/-- The first list does not count, and in the second one the text comes first. -/
def textUnion : Entries := [(.str "anyOf", .null),
  (.str "oneOf", .seq [typedMap "object", typedMap "string", typedMap "integer"])]

theorem text_union_insertion :
    UnionList .empty textUnion ([typedMap "object", typedMap "string"] ++ [typedMap "integer"]) ∧
    (∀ m ∈ [.int 5, typedMap "object", typedMap "boolean"], typeOf .empty
      (withMembers textUnion ([typedMap "object", typedMap "string"] ++ [m, typedMap "integer"])) =
        .string) ∧
    typeOf .empty (withMembers textUnion
      ([typedMap "object", typedMap "string"] ++ [typedMap "null", typedMap "integer"])) =
        TypeRef.string.orNullable true := by
  have hb : Bare .empty (.map textUnion) textUnion := ⟨rfl, by decide⟩
  have hl : UnionList .empty textUnion
      ([typedMap "object", typedMap "string"] ++ [typedMap "integer"]) := Or.inr ⟨by decide, rfl⟩
  have hstring : typeOf .empty (.map textUnion) = .string := by decide +kernel
  have htext : TypedOtherwise .empty ["null", "object"] (typedMap "string") :=
    ⟨_, rfl, by decide⟩
  have hfirst : ∃ m ∈ [typedMap "object", typedMap "string"],
      TypedOtherwise .empty ["null", "object"] m := ⟨_, by simp, htext⟩
  have hany : ∃ m ∈ [typedMap "object", typedMap "string"] ++ [typedMap "integer"],
      TypedOtherwise .empty ["null", "object"] m := ⟨typedMap "string", by simp, htext⟩
  rw [← hstring]
  refine ⟨hl, ?_, (union_insertion hb hl (typedMap "null")).2.1 rfl⟩
  intro m hm
  rcases List.mem_cons.mp hm with rfl | hm
  · exact (union_insertion hb hl (.int 5)).1 rfl
  rcases List.mem_cons.mp hm with rfl | hm
  · exact (union_insertion hb hl (typedMap "object")).2.2.1 rfl hany
  · obtain rfl := List.mem_singleton.mp hm
    exact (union_insertion hb hl (typedMap "boolean")).2.2.2 ⟨_, rfl, by decide⟩ hfirst

/-- In front of the text it would be taken. -/
example : typeOf .empty (withMembers textUnion ([typedMap "object"] ++
    typedMap "boolean" :: [typedMap "string", typedMap "integer"])) = .bool := by decide +kernel

end Schema

end OpenApiIR
