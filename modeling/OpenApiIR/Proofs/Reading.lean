import Mathlib.Data.List.Forall2
import OpenApiIR.Proofs.Form

/-! Maps that read alike. Only a few fields of a map are read on the way to its form; where these
say the same in two maps, up to the fragments inside, the forms are of one kind. -/

namespace OpenApiIR

namespace Entries

variable {es : Entries}

theorem value?_map (F : Scalar → Value → Value) (es : Entries) (name : String) :
    value? (es.map fun e => (e.1, F e.1 e.2)) (.str name) =
      (es.value? (.str name)).map (F (.str name)) := by
  induction es with
  | nil => rfl
  | cons e rest ih =>
    by_cases hk : e.1.sameKey (.str name) = true
    · have hkey : e.1 = .str name := (Scalar.str_sameKey_iff name e.1).mp hk
      simp [value?, hkey, Scalar.sameKey_str]
    · simpa [value?, hk] using ih

theorem mem_of_value?_str {name : String} {v : Value} (h : es.value? (.str name) = some v) :
    (Scalar.str name, v) ∈ es := by
  obtain ⟨e, he, rfl⟩ := Option.map_eq_some_iff.mp h
  have hs : e.1.sameKey (.str name) = true := by simpa using List.find?_some he
  have hk := (Scalar.str_sameKey_iff name e.1).mp hs
  have hm := List.mem_of_find?_eq_some he
  rwa [← hk]

/-- Leaving out other entries does not change what stands under a key. -/
theorem value?_filter {p : Scalar → Bool} {name : String} (h : p (.str name) = true)
    (es : Entries) :
    value? (es.filter fun e => p e.1) (.str name) = es.value? (.str name) := by
  have hkept : (fun e : Scalar × Value => decide (p e.1 = true ∧ e.1.sameKey (.str name) = true)) =
      fun e => e.1.sameKey (.str name) := by
    funext e
    by_cases hk : e.1.sameKey (.str name) = true
    · simp [(Scalar.str_sameKey_iff name e.1).mp hk, h]
    · simp [hk]
  rw [value?, List.find?_filter, hkept, value?]

theorem value?_without {left name : String} (h : name ≠ left) (es : Entries) :
    value? (es.filter fun e => e.1 ≠ .str left) (.str name) = es.value? (.str name) :=
  value?_filter (p := fun k => k ≠ .str left) (by simpa using h) es

theorem value?_self_without (left : String) (es : Entries) :
    value? (es.filter fun e => e.1 ≠ .str left) (.str left) = none := by
  rw [value?, Option.map_eq_none_iff, List.find?_eq_none]
  intro e he hk
  have hne := (List.mem_filter.mp he).2
  simp [(Scalar.str_sameKey_iff left e.1).mp hk] at hne

end Entries

/-! Without links a value is no larger than it looks. -/

theorem Value.sizeOf_entry {es : Entries} {e : Scalar × Value} (h : e ∈ es) :
    sizeOf e.2 < sizeOf (Value.map es) := by
  have hmem := List.sizeOf_lt_of_mem h
  obtain ⟨k, v⟩ := e
  simp only [Prod.mk.sizeOf_spec, Value.map.sizeOf_spec] at hmem ⊢
  omega

theorem Entries.sizeOf_field {es : Entries} {name : String} (h : es.field name ≠ .null) :
    sizeOf (es.field name) < sizeOf (Value.map es) := by
  unfold field value? at *
  cases hf : List.find? (fun e => e.1.sameKey (.str name)) es with
  | none => simp [hf] at h
  | some e => exact Value.sizeOf_entry (List.mem_of_find?_eq_some hf)

theorem Value.sizeOf_item {xs : List Value} {v : Value} (h : v ∈ xs) :
    sizeOf v < sizeOf (Value.seq xs) := by
  have hmem := List.sizeOf_lt_of_mem h
  simp only [Value.seq.sizeOf_spec]
  omega

theorem Graph.eq_seq_of_empty {v : Value} {xs : List Value} (h : empty.items? v = some xs) :
    v = .seq xs := by
  have hv := items?_eq_some_iff.mp h
  cases v <;> simp_all [view, empty]

theorem Graph.eq_map_of_empty {v : Value} {es : Entries} (h : empty.entries? v = some es) :
    v = .map es := by
  have hv := entries?_eq_some_iff.mp h
  cases v <;> simp_all [view, empty]

namespace Schema

structure PartAlike (g g' : Graph) (R : Value → Value → Prop) (v v' : Value) : Prop where
  isMap : g'.isMap v' = g.isMap v
  related : g.isMap v = true → R v v'

structure CandidateAlike (g g' : Graph) (R : Value → Value → Prop) (m m' : Value) : Prop where
  object : typed g' m' "object" = typed g m "object"
  related : R m m'

structure ReadAlike (g g' : Graph) (R : Value → Value → Prop) (es es' : Entries) : Prop where
  union : isUnion es' = isUnion es
  members : Option.Rel (fun ms ms' => List.Forall₂ (CandidateAlike g g' R) (candidates g ms)
    (candidates g' ms')) (unionMembers? g es) (unionMembers? g' es')
  keyword : keyword g' es' = keyword g es
  format : isTimeFormat (es'.field "format") = isTimeFormat (es.field "format")
  items : PartAlike g g' R (es.field "items") (es'.field "items")
  values : PartAlike g g' R (es.field "additionalProperties") (es'.field "additionalProperties")

variable {g g' : Graph} {R : Value → Value → Prop} {es es' : Entries}

theorem choice?_alike {cs cs' : List Value} (h : List.Forall₂ (CandidateAlike g g' R) cs cs') :
    Option.Rel R (choice? g cs) (choice? g' cs') := by
  have hfind : Option.Rel R (cs.find? fun m => !typed g m "object")
      (cs'.find? fun m => !typed g' m "object") := by
    induction h with
    | nil => exact .none
    | @cons m m' _ _ hm _ ih =>
      rw [List.find?_cons, List.find?_cons, hm.object]
      cases typed g m "object" with
      | true => exact ih
      | false => exact .some hm.related
  have hhead : Option.Rel R cs.head? cs'.head? := by
    cases h with
    | nil => exact .none
    | cons hm _ => exact .some hm.related
  unfold choice?
  revert hfind
  generalize cs.find? _ = found, cs'.find? _ = found'
  intro hfind
  cases hfind with
  | none => exact hhead
  | some hr => exact .some hr

theorem partForm_alike {around : Value → Form} {anything : TypeRef} {v v' : Value}
    (ha : ∀ {v v'}, R v v' → (around v).Agree R (around v')) (h : PartAlike g g' R v v') :
    (partForm g around anything v).Agree R (partForm g' around anything v') := by
  unfold partForm
  rw [h.isMap]
  cases hm : g.isMap v with
  | true => exact ha (h.related hm)
  | false => exact .known anything

theorem ReadAlike.wordForm (h : ReadAlike g g' R es es') (word : String) :
    (wordForm g es word).Agree R (wordForm g' es' word) := by
  unfold Schema.wordForm
  split
  · rw [h.format]
    exact .known _
  split
  · exact partForm_alike .list h.items
  split
  · exact partForm_alike .map h.values
  · exact .known _

theorem ReadAlike.unionForm (h : ReadAlike g g' R es es') :
    (unionForm g es).Agree R (unionForm g' es') := by
  have hm := h.members
  unfold Schema.unionForm
  revert hm
  generalize unionMembers? g es = members, unionMembers? g' es' = members'
  intro hm
  cases hm with
  | none => exact .known .any
  | @some ms ms' hc =>
    simp only [Option.bind_some]
    have hchoice := choice?_alike hc
    revert hchoice
    generalize choice? g (candidates g ms) = chosen, choice? g' (candidates g' ms') = chosen'
    intro hchoice
    cases hchoice with
    | none => exact .known .any
    | some hr => exact .like hr

theorem ReadAlike.form (h : ReadAlike g g' R es es') :
    (bareForm g es).Agree R (bareForm g' es') := by
  unfold bareForm
  rw [h.union, h.keyword]
  cases isUnion es with
  | true => exact h.unionForm
  | false =>
    cases Schema.keyword g es with
    | listed first => cases first <;> exact .known _
    | word text =>
      simp only [keywordForm, Bool.false_eq_true, if_false]
      split
      · exact h.wordForm text
      · exact .known _
    | missing => exact .known _

/-- Maps that read alike, or refer to the same. -/
structure MapAlike (g g' : Graph) (R : Value → Value → Prop) (es es' : Entries) : Prop where
  ref : (es'.value? (.str "$ref")).map refType = (es.value? (.str "$ref")).map refType
  read : ReadAlike g g' R es es'

variable {v v' : Value}

theorem form_alike (h : Option.Rel (MapAlike g g' R) (g.entries? v) (g'.entries? v')) :
    (form g v).Agree R (form g' v') := by
  unfold form
  revert h
  generalize g.entries? v = entries, g'.entries? v' = entries'
  intro h
  cases h with
  | none => exact .known .any
  | @some es es' hm =>
    have href := hm.ref
    dsimp only
    cases hr : es.value? (.str "$ref") with
    | none =>
      rw [hr, Option.map_none, Option.map_eq_none_iff] at href
      rw [href]
      exact hm.read.form
    | some ref =>
      rw [hr, Option.map_some] at href
      obtain ⟨ref', hr', hsame⟩ := Option.map_eq_some_iff.mp href
      rw [hr']
      dsimp only
      rw [hsame]
      exact .known _

theorem sign_alike (h : Option.Rel (MapAlike g g' R) (g.entries? v) (g'.entries? v'))
    (hs : ∀ es es', g.entries? v = some es → g'.entries? v' = some es' →
      bareSign g' es' = bareSign g es) : sign g' v' = sign g v := by
  unfold sign
  revert h hs
  generalize g.entries? v = entries, g'.entries? v' = entries'
  intro h hs
  cases h with
  | none => rfl
  | @some es es' hm =>
    have href := congrArg Option.isNone hm.ref
    rw [Option.isNone_map, Option.isNone_map] at href
    dsimp only
    rw [href, hs es es' rfl rfl]

end Schema

end OpenApiIR
