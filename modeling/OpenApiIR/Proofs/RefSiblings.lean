import OpenApiIR.Proofs.Place
import OpenApiIR.Proofs.Reading

/-! What stands beside a `$ref`. It is never read, wherever in a fragment the reference stands,
except by a union: that looks at the type of its members before it looks at what they are. -/

namespace OpenApiIR

namespace Schema

def Place.isMember : Place → Bool
  | here => false
  | part _ _ inside _ => inside.isMember
  | member _ _ _ here _ _ => true
  | member _ _ _ inside _ _ => inside.isMember

def SameTypes (g : Graph) (v v' : Value) : Prop :=
  ∀ levels, typeWithin g levels v' = typeWithin g levels v

/-- A union cannot tell two members apart. -/
structure SameMember (g : Graph) (v v' : Value) : Prop where
  isMap : g.isMap v' = g.isMap v
  null : typed g v' "null" = typed g v "null"
  object : typed g v' "object" = typed g v "object"

variable {g : Graph} {v v' w w' : Value} {es es' before after : Entries}

theorem sameTypes_ref {ref : Value} (he : g.entries? v = some es) (he' : g.entries? v' = some es')
    (hr : es.value? (.str "$ref") = some ref) (hr' : es'.value? (.str "$ref") = some ref) :
    SameTypes g v v' := by
  intro levels
  cases levels with
  | zero => rfl
  | succ levels =>
    rw [typeWithin, typeWithin, stepType_eq, stepType_eq, (form_ref he hr).1, (form_ref he hr).2,
      (form_ref he' hr').1, (form_ref he' hr').2]

theorem sameTypes_refl (v : Value) : SameTypes g v v := fun _ => rfl

theorem partAlike_refl (v : Value) : PartAlike g g (SameTypes g) v v :=
  ⟨rfl, fun _ => sameTypes_refl v⟩

theorem candidates_refl (ms : List Value) :
    List.Forall₂ (CandidateAlike g g (SameTypes g)) (candidates g ms) (candidates g ms) :=
  List.forall₂_same.mpr fun m _ => ⟨rfl, sameTypes_refl m⟩

/-- A fragment around a place, without a `$ref` of its own, or with one that hides the place. -/
theorem sameTypes_around {key : String} (hk : "$ref" ≠ key)
    (h : ReadAlike g g (SameTypes g) (around before after key w) (around before after key w'))
    (hs : bareSign g (around before after key w') = bareSign g (around before after key w)) :
    SameTypes g (.map (around before after key w)) (.map (around before after key w')) := by
  have hmaps : Option.Rel (MapAlike g g (SameTypes g))
      (g.entries? (.map (around before after key w)))
      (g.entries? (.map (around before after key w'))) :=
    .some ⟨congrArg _ (value?_around "$ref" hk), h⟩
  have hsign : sign g (.map (around before after key w')) =
    sign g (.map (around before after key w)) := by
    apply sign_alike hmaps
    rintro es es' he he'
    obtain rfl := Option.some.inj he
    obtain rfl := Option.some.inj he'
    exact hs
  intro levels
  cases levels with
  | zero => rfl
  | succ levels =>
    rw [typeWithin, typeWithin, stepType_eq, stepType_eq, hsign, (form_alike hmaps).type_eq]
    intro u u' hu
    exact hu levels

theorem partAlike_around {key : String} (name : String)
    (h : name = key → PartAlike g g (SameTypes g) w w') :
    PartAlike g g (SameTypes g) ((around before after key w).field name)
      ((around before after key w').field name) := by
  by_cases hn : name = key
  · rw [hn]
    rcases field_around_self before after key with ⟨u, hu⟩ | hu
    · rw [hu, hu]
      exact partAlike_refl u
    · rw [hu, hu]
      exact h hn
  · rw [field_around name hn]
    exact partAlike_refl _

theorem sameTypes_part (key : PartKey) (h : PartAlike g g (SameTypes g) w w') :
    SameTypes g (.map (around before after key.name w))
      (.map (around before after key.name w')) := by
  have htype : "type" ≠ key.name := by cases key <;> decide
  apply sameTypes_around (by cases key <;> decide)
  · refine ⟨isUnion_around _, ?_, keyword_around htype, ?_, ?_, ?_⟩
    · have hmembers : unionMembers? g (around before after key.name w') =
          unionMembers? g (around before after key.name w) := unionMembers?_part key
      rw [hmembers]
      cases unionMembers? g (around before after key.name w) with
      | none => exact .none
      | some ms => exact .some (candidates_refl ms)
    · rw [field_around "format" (by cases key <;> decide)]
    · exact partAlike_around "items" fun _ => h
    · exact partAlike_around "additionalProperties" fun _ => h
  · apply bareSign_around htype (by cases key <;> decide)
    rw [unionSign, unionSign, unionMembers?_part]

theorem candidates_member (left right : List Value) (h : SameTypes g w w')
    (hm : SameMember g w w') :
    List.Forall₂ (CandidateAlike g g (SameTypes g)) (candidates g (left ++ w :: right))
      (candidates g (left ++ w' :: right)) := by
  simp only [candidates, List.filter_append, List.filter_cons, hm.isMap, hm.null]
  split
  · exact List.rel_append (candidates_refl left) (.cons ⟨hm.object, h⟩ (candidates_refl right))
  · exact List.rel_append (candidates_refl left) (candidates_refl right)

theorem sameTypes_member (key : UnionKey) (left right : List Value) (h : SameTypes g w w')
    (hm : SameMember g w w') :
    SameTypes g (.map (around before after key.name (.seq (left ++ w :: right))))
      (.map (around before after key.name (.seq (left ++ w' :: right)))) := by
  have htype : "type" ≠ key.name := by cases key <;> decide
  apply sameTypes_around (by cases key <;> decide)
  · refine ⟨isUnion_around _, ?_, keyword_around htype, ?_, ?_, ?_⟩
    · rcases unionMembers?_list key before after with ⟨o, ho⟩ | ho
      · rw [ho, ho]
        cases o with
        | none => exact .none
        | some ms => exact .some (candidates_refl ms)
      · rw [ho, ho]
        exact .some (candidates_member left right h hm)
    · rw [field_around "format" (by cases key <;> decide)]
    · rw [field_around "items" (by cases key <;> decide)]
      exact partAlike_refl _
    · rw [field_around "additionalProperties" (by cases key <;> decide)]
      exact partAlike_refl _
  · apply bareSign_around htype (by cases key <;> decide)
    rcases unionMembers?_list key before after with ⟨o, ho⟩ | ho
    · rw [unionSign, unionSign, ho, ho]
    · rw [unionSign, unionSign, ho, ho]
      simp [hm.null]

theorem sameMember_map (he : g.entries? v = some es) (he' : g.entries? v' = some es')
    (hn : hasType es' "null" = hasType es "null")
    (ho : hasType es' "object" = hasType es "object") :
    SameMember g v v' := by
  constructor
  · rw [Graph.isMap_iff.mpr ⟨es, he⟩, Graph.isMap_iff.mpr ⟨es', he'⟩]
  · rw [typed_eq he, typed_eq he', hn]
  · rw [typed_eq he, typed_eq he', ho]

/-- Around a place no union sees what stands there. -/
theorem sameMember_fill (p : Place) (h : p = .here → SameMember g v v') :
    SameMember g (p.fill v) (p.fill v') := by
  cases p with
  | here => exact h rfl
  | part before key inside after =>
    have hkey : "type" ≠ key.name := by cases key <;> decide
    exact sameMember_map rfl rfl (hasType_around hkey "null") (hasType_around hkey "object")
  | member before key left inside right after =>
    have hkey : "type" ≠ key.name := by cases key <;> decide
    exact sameMember_map rfl rfl (hasType_around hkey "null") (hasType_around hkey "object")

/-- Fragments of one type can stand for each other, if no union tells them apart as its members. -/
theorem sameTypes_fill (h : SameTypes g v v') (hmap : g.isMap v' = g.isMap v) (p : Place)
    (hm : p.isMember = true → SameMember g v v') : SameTypes g (p.fill v) (p.fill v') := by
  induction p with
  | here => exact h
  | part before key inside after ih =>
    exact sameTypes_part key ⟨isMap_fill hmap inside, fun _ => ih hm⟩
  | member before key left inside right after ih =>
    apply sameTypes_member key left right
    · apply ih
      intro hi
      cases inside with
      | here => cases hi
      | part => exact hm hi
      | member => exact hm hi
    · apply sameMember_fill
      rintro rfl
      exact hm rfl

/-! Two unions that tell members apart. -/

def alone : Place := .member [] .anyOf [] .here [] []

def integer : Value := .map [(.str "type", .str "integer")]

def besideInteger : Place := .member [] .anyOf [] .here [integer] []

theorem typeOf_anyOf (g : Graph) (ms : List Value) :
    typeOf g (.map [(.str "anyOf", .seq ms)]) =
      (memberType g (typeWithin g depthLimit) ms).orNullable (ms.any (typed g · "null")) := by
  have hb : Bare g (.map [(.str "anyOf", .seq ms)]) [(.str "anyOf", .seq ms)] := ⟨rfl, rfl⟩
  have hm : unionMembers? g [(.str "anyOf", .seq ms)] = some ms := rfl
  have hn : (Entries.field [(.str "anyOf", .seq ms)] "nullable").isTrue = false := rfl
  rw [typeOf, typeWithin, stepType_union _ hb rfl hm, hn, Bool.or_false]

theorem typeWithin_ref {ref : Value} (he : g.entries? v = some es)
    (hr : es.value? (.str "$ref") = some ref) : typeWithin g depthLimit v = refType ref := by
  have hstep : typeWithin g depthLimit v = stepType g (typeWithin g 63) v := rfl
  rw [hstep, stepType_eq, (form_ref he hr).1, (form_ref he hr).2, TypeRef.orNullable_false]
  rfl

theorem kind_refType (ref : Value) : (refType ref).kind ≠ .int := by
  unfold refType
  split
  · split
    · simp [TypeRef.model, TypeRef.kind]
    · decide
  · decide

theorem nullable_alone {ref : Value} (he : g.entries? v = some es)
    (hr : es.value? (.str "$ref") = some ref) :
    (typeOf g (alone.fill v)).nullable = hasType es "null" := by
  have hfill : alone.fill v = .map [(.str "anyOf", .seq [v])] := rfl
  have hmap : g.isMap v = true := Graph.isMap_iff.mpr ⟨es, he⟩
  have hnull : typed g v "null" = hasType es "null" := typed_eq he "null"
  rw [hfill, typeOf_anyOf, TypeRef.nullable_orNullable, List.any_cons, List.any_nil, hnull,
    Bool.or_false]
  cases hn : hasType es "null" with
  | true => exact Bool.or_true _
  | false =>
    have hc : choice? g (candidates g [v]) = some v := by
      cases ho : typed g v "object" <;> simp [candidates, choice?, hmap, hnull, hn, ho]
    have hflag : (refType ref).nullable = false := nullable_known (form_ref he hr).1
    rw [memberType, hc, Bool.or_false]
    exact (congrArg TypeRef.nullable (typeWithin_ref he hr)).trans hflag

theorem kind_besideInteger {ref : Value} (he : g.entries? v = some es)
    (hr : es.value? (.str "$ref") = some ref) :
    (typeOf g (besideInteger.fill v)).kind = .int ↔
      hasType es "null" = true ∨ hasType es "object" = true := by
  have hfill : besideInteger.fill v = .map [(.str "anyOf", .seq [v, integer])] := rfl
  have hmap : g.isMap v = true := Graph.isMap_iff.mpr ⟨es, he⟩
  have hnull : typed g v "null" = hasType es "null" := typed_eq he "null"
  have hobject : typed g v "object" = hasType es "object" := typed_eq he "object"
  have himap : g.isMap integer = true := rfl
  have hinull : typed g integer "null" = false := rfl
  have hiobject : typed g integer "object" = false := rfl
  have hint : (typeWithin g depthLimit integer).kind = .int := rfl
  rw [hfill, typeOf_anyOf, TypeRef.kind_orNullable]
  by_cases hskip : hasType es "null" = true ∨ hasType es "object" = true
  · have hc : choice? g (candidates g [v, integer]) = some integer := by
      rcases hskip with hn | ho
      · simp [candidates, choice?, hmap, hnull, hn, himap, hinull, hiobject]
      · cases hn : hasType es "null" <;>
          simp [candidates, choice?, hmap, hnull, hobject, hn, ho, himap, hinull, hiobject]
    simp only [memberType, hc, hint, hskip]
  · have hn : hasType es "null" = false := by simpa using fun h => hskip (Or.inl h)
    have ho : hasType es "object" = false := by simpa using fun h => hskip (Or.inr h)
    have hc : choice? g (candidates g [v, integer]) = some v := by
      simp [candidates, choice?, hmap, hnull, hobject, hn, ho]
    simp only [memberType, hc, typeWithin_ref he hr, hskip, iff_false]
    exact kind_refType ref

/-- What stands beside a `$ref` makes no difference in most places, and in a union only by being the
type of null or of an object. -/
theorem siblings_inert_iff {ref : Value} (he : g.entries? v = some es)
    (he' : g.entries? v' = some es') (hr : es.value? (.str "$ref") = some ref)
    (hr' : es'.value? (.str "$ref") = some ref) :
    (∀ p : Place, p.isMember = false → typeOf g (p.fill v') = typeOf g (p.fill v)) ∧
    ((∀ p : Place, typeOf g (p.fill v') = typeOf g (p.fill v)) ↔
      hasType es' "null" = hasType es "null" ∧ hasType es' "object" = hasType es "object") := by
  have hsame := sameTypes_ref he he' hr hr'
  have hmap : g.isMap v' = g.isMap v := by
    rw [Graph.isMap_iff.mpr ⟨es, he⟩, Graph.isMap_iff.mpr ⟨es', he'⟩]
  constructor
  · intro p hp
    exact sameTypes_fill hsame hmap p (fun h => by simp [h] at hp) (depthLimit + 1)
  constructor
  · intro h
    have hnull : hasType es' "null" = hasType es "null" := by
      rw [← nullable_alone he hr, ← nullable_alone he' hr', h alone]
    have hskip : (hasType es' "null" = true ∨ hasType es' "object" = true) ↔
        (hasType es "null" = true ∨ hasType es "object" = true) := by
      rw [← kind_besideInteger he hr, ← kind_besideInteger he' hr', h besideInteger]
    have hobject : ∀ es : Entries, hasType es "null" = true → hasType es "object" = false := by
      intro es hn
      simp [hasType, (hasType_iff es "null").mp hn, Value.str?]
    refine ⟨hnull, ?_⟩
    cases hn : hasType es "null" with
    | true => rw [hobject es hn, hobject es' (hnull.trans hn)]
    | false => simpa [hn, hnull] using hskip
  · rintro ⟨hn, ho⟩ p
    exact sameTypes_fill hsame hmap p (fun _ => sameMember_map he he' hn ho) (depthLimit + 1)

def petRef : Entries := [(.str "$ref", .str "#/components/schemas/Pet")]

def petRefTyped (word : String) : Entries := (.str "type", .str word) :: petRef

/-- A word that is no sign to a union makes no difference even there. -/
theorem string_pet_inert : hasType (petRefTyped "string") "null" = false ∧
    ∀ p : Place, typeOf .empty (p.fill (.map (petRefTyped "string"))) =
      typeOf .empty (p.fill (.map petRef)) := by
  have he : Graph.empty.entries? (.map petRef) = some petRef := rfl
  have he' : Graph.empty.entries? (.map (petRefTyped "string")) = some (petRefTyped "string") := rfl
  have hiff := siblings_inert_iff he he' rfl rfl
  exact ⟨by decide, hiff.2.mpr ⟨by decide, by decide⟩⟩

def orString (es : Entries) : Value :=
  .map [(.str "anyOf", .seq [.map es, .map [(.str "type", .str "string")]])]

/-- A reference that states to be of an object loses its place to another member. -/
theorem object_pet_passed_over : typeOf .empty (orString petRef) = .model "Pet" ∧
    typeOf .empty (orString (petRefTyped "object")) = .string := by
  decide +kernel

end Schema

end OpenApiIR
