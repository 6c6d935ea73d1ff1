import OpenApiIR.Proofs.LoadOutcome
import OpenApiIR.Proofs.Nullability
import OpenApiIR.Proofs.Reading

/-! Fragments that contain themselves, as the fragments without links that they unroll to. Down to a
depth both have one type, once enough is unrolled. -/

namespace OpenApiIR

/-- What links name is never a mere scalar. -/
def Graph.NamesCollections (g : Graph) : Prop := ∀ (n : Nat) (s : Scalar), g.cells[n]? ≠ some
    (.scalar s)

/-! The documents that are read from a text. -/

namespace Yaml.NodeGraph

theorem collection_of_mem_cycles {g : NodeGraph} {n : Nat} (h : n ∈ g.cycles) :
    (g.node n).tag.isCollection = true := by
  unfold cycles at h
  split at h
  · have hreach := (List.mem_filter.mp h).2
    cases ht : (g.node n).tag.isCollection with
    | true => rfl
    | false =>
      have hparts : g.parts n = [] := by
        have hinside : g.checkInside n = .ok [] := by
          unfold checkInside
          cases htag : (g.node n).tag <;> simp_all [Tag.isCollection] <;> rfl
        simp only [parts, hinside]
      rw [hparts] at hreach
      cases hsteps : g.steps <;> simp [hsteps, reach] at hreach
  · cases h

theorem document_namesCollections (room : Nat) (g : NodeGraph) :
    (g.document room).graph.NamesCollections := by
  intro n s h
  have hmem := Array.mem_of_getElem? h
  simp only [document, List.mem_toArray, List.mem_map] at hmem
  obtain ⟨m, hm, hs⟩ := hmem
  have htag := collection_of_mem_cycles hm
  unfold valueFrom at hs
  cases ht : (g.node m).tag <;> simp_all [Tag.isCollection]

end Yaml.NodeGraph

theorem exists_of_bind_ok {ε α β : Type} {x : Except ε α} {f : α → Except ε β} {b : β}
    (h : x >>= f = .ok b) : ∃ a, x = .ok a ∧ f a = .ok b := by
  cases x with
  | error e => cases h
  | ok a => exact ⟨a, rfl, h⟩

theorem Document.namesCollections_ofTreeIn (room : Nat) (v : Value) :
    (Document.ofTreeIn room v).graph.NamesCollections := by
  intro n s
  simp [Document.ofTreeIn]

theorem Yaml.read_namesCollections {room : Nat} {text : String} {d : Document}
    (h : Yaml.read room text = .ok d) : d.graph.NamesCollections := by
  obtain ⟨parsed, _, hd⟩ := exists_of_bind_ok h
  cases parsed with
  | none =>
    obtain rfl := Except.ok.inj hd
    exact Document.namesCollections_ofTreeIn room .null
  | some g =>
    obtain ⟨_, _, hd⟩ := exists_of_bind_ok hd
    obtain ⟨_, _, hd⟩ := exists_of_bind_ok hd
    obtain rfl := Except.ok.inj hd
    exact g.document_namesCollections room

theorem Load.readYaml_eq_ok_iff {room : Nat} {text : String} {d : Document} :
    readYaml room text = .ok d ↔ Yaml.read room text = .ok d := by
  unfold readYaml
  cases Yaml.read room text with
  | ok d' => simp [Except.mapError]
  | error e => exact iff_of_false nofun nofun

theorem Load.Decodes.namesCollections {room : Nat} {hint : FormatHint} {text : String}
    {d : Document}
    (h : Decodes (readYaml room) room hint text d) : d.graph.NamesCollections := by
  cases h with
  | json _ _ => exact Document.namesCollections_ofTreeIn room _
  | yaml _ h => exact Yaml.read_namesCollections (readYaml_eq_ok_iff.mp h)

namespace Entries

def mapValues (F : Value → Value) (es : Entries) : Entries := es.map fun e => (e.1, F e.2)

theorem value?_mapValues (F : Value → Value) (es : Entries) (name : String) :
    (es.mapValues F).value? (.str name) = (es.value? (.str name)).map F :=
  value?_map (fun _ => F) es name

theorem declares_mapValues (F : Value → Value) (es : Entries) (name : String) :
    (es.mapValues F).declares name = es.declares name := by
  unfold declares
  rw [value?_mapValues, Option.isSome_map]

theorem field_mapValues {F : Value → Value} (h : F .null = .null) (es : Entries) (name : String) :
    (es.mapValues F).field name = F (es.field name) := by
  unfold field
  rw [value?_mapValues]
  cases es.value? (.str name) with
  | none => exact h.symm
  | some v => rfl

end Entries

namespace Schema

/-- A value without the links in it, down to so many collections inside one another. Links that name
nothing stay. -/
def unroll (g : Graph) : (levels : Nat) → Value → Value
  | 0, v => match g.view v with
    | .map _ => .map []
    | .seq _ => .seq []
    | .pair _ _ => .pair .null .null
    | .scalar _ => v
    | w => w
  | levels + 1, v => match g.view v with
    | .map es => .map (Entries.mapValues (unroll g levels) es)
    | .seq xs => .seq (xs.map (unroll g levels))
    | .pair first second => .pair (unroll g levels first) (unroll g levels second)
    | .scalar _ => v
    | w => w

variable {g : Graph} {v : Value} {es : Entries}

theorem unroll_scalar (g : Graph) (levels : Nat) (s : Scalar) :
    unroll g levels (.scalar s) = .scalar s := by
  cases levels <;> rfl

theorem unroll_of_scalar {s : Scalar} (h : g.view v = .scalar s) (levels : Nat) :
    unroll g levels v = v := by
  cases levels <;> simp only [unroll, h]

theorem unroll_eq_scalar_iff {levels : Nat} {s : Scalar} :
    unroll g levels v = .scalar s ↔ v = .scalar s := by
  constructor
  · intro h
    cases hv : g.view v with
    | scalar t => rwa [unroll_of_scalar hv] at h
    | link n => exact absurd hv (g.view_ne_link v n)
    | _ => cases levels <;> simp [unroll, hv] at h
  · rintro rfl
    exact unroll_scalar g levels s

/-- Unless links name scalars, a word behind one is not lost. -/
theorem view_unroll_scalar {s : Scalar} (h : g.view v = .scalar s) (levels : Nat) :
    ∃ t, Graph.empty.view (unroll g levels v) = .scalar t ∧ (g.NamesCollections → t = s) := by
  rw [unroll_of_scalar h]
  cases v with
  | scalar t => exact ⟨t, rfl, fun _ => Value.scalar.inj h⟩
  | link n =>
    refine ⟨.null, rfl, fun hg => ?_⟩
    unfold Graph.view at h
    cases hc : g.cells[n]? with
    | none => simpa [hc] using h
    | some c =>
      cases c with
      | scalar t => exact absurd hc (hg n t)
      | link m => simpa [hc] using h
      | _ => simp [hc] at h
  | _ => cases h

theorem str?_unroll (levels : Nat) (v : Value) : (unroll g levels v).str? = v.str? := by
  apply Option.ext
  intro s
  rw [Value.str?_eq_some_iff, Value.str?_eq_some_iff, unroll_eq_scalar_iff]

theorem isNull_unroll (levels : Nat) (v : Value) : (unroll g levels v).isNull = v.isNull := by
  rw [Bool.eq_iff_iff, isNull_iff, isNull_iff, unroll_eq_scalar_iff]

theorem isTrue_unroll (levels : Nat) (v : Value) : (unroll g levels v).isTrue = v.isTrue := by
  rw [Bool.eq_iff_iff, isTrue_iff, isTrue_iff, unroll_eq_scalar_iff]

theorem entries?_unroll (levels : Nat) (v : Value) :
    Graph.empty.entries? (unroll g (levels + 1) v) =
      (g.entries? v).map (Entries.mapValues (unroll g levels)) := by
  unfold Graph.entries?
  cases hv : g.view v with
  | scalar s =>
    obtain ⟨t, ht, _⟩ := view_unroll_scalar hv (levels + 1)
    rw [ht]
    rfl
  | link n => exact absurd hv (g.view_ne_link v n)
  | _ =>
    simp only [unroll, hv]
    rfl

theorem items?_unroll (levels : Nat) (v : Value) :
    Graph.empty.items? (unroll g (levels + 1) v) =
      (g.items? v).map (List.map (unroll g levels)) := by
  unfold Graph.items?
  cases hv : g.view v with
  | scalar s =>
    obtain ⟨t, ht, _⟩ := view_unroll_scalar hv (levels + 1)
    rw [ht]
    rfl
  | link n => exact absurd hv (g.view_ne_link v n)
  | _ =>
    simp only [unroll, hv]
    rfl

theorem isMap_unroll (levels : Nat) (v : Value) :
    Graph.empty.isMap (unroll g levels v) = g.isMap v := by
  cases levels with
  | zero =>
    unfold Graph.isMap Graph.entries?
    cases hv : g.view v with
    | scalar s =>
      obtain ⟨t, ht, _⟩ := view_unroll_scalar hv 0
      rw [ht]
    | link n => exact absurd hv (g.view_ne_link v n)
    | _ =>
      simp only [unroll, hv]
      rfl
  | succ levels => rw [Graph.isMap, entries?_unroll, Option.isSome_map, Graph.isMap]

theorem field_unroll (levels : Nat) (es : Entries) (name : String) :
    (es.mapValues (unroll g levels)).field name = unroll g levels (es.field name) :=
  Entries.field_mapValues (unroll_scalar g levels .null) es name

theorem typed_unroll (levels : Nat) (v : Value) (word : String) :
    typed .empty (unroll g (levels + 1) v) word = typed g v word := by
  unfold typed
  rw [entries?_unroll]
  cases g.entries? v with
  | none => rfl
  | some es => simp only [Option.map_some, hasType, field_unroll, str?_unroll]

theorem unionMembers?_unroll (levels : Nat) (es : Entries) :
    unionMembers? .empty (es.mapValues (unroll g (levels + 1))) =
      (unionMembers? g es).map (List.map (unroll g levels)) := by
  simp only [unionMembers?, field_unroll, isNull_unroll]
  split
  · exact items?_unroll levels _
  · exact items?_unroll levels _

theorem candidates_unroll (levels : Nat) (ms : List Value) :
    candidates .empty (ms.map (unroll g (levels + 1))) =
      (candidates g ms).map (unroll g (levels + 1)) := by
  unfold candidates
  rw [List.filter_map]
  congr 2
  funext m
  simp only [Function.comp_apply, isMap_unroll, typed_unroll]

theorem isUnion_unroll (levels : Nat) (es : Entries) :
    isUnion (es.mapValues (unroll g levels)) = isUnion es := by
  rw [isUnion, isUnion, Entries.declares_mapValues, Entries.declares_mapValues]

theorem texts_unroll (levels : Nat) (words : List Value) :
    (words.map (unroll g levels)).filterMap Value.str? = words.filterMap Value.str? := by
  rw [List.filterMap_map]
  congr 1
  funext w
  exact str?_unroll levels w

theorem keyword_unroll (hg : g.NamesCollections) (levels : Nat) (es : Entries) :
    keyword .empty (es.mapValues (unroll g (levels + 1))) = keyword g es := by
  unfold keyword
  rw [field_unroll]
  generalize es.field "type" = v
  cases hv : g.view v with
  | scalar s =>
    obtain ⟨t, ht, hs⟩ := view_unroll_scalar hv (levels + 1)
    rw [ht, hs hg]
  | seq words => simp only [unroll, hv, Graph.view_seq, firstWord?, texts_unroll]
  | link n => exact absurd hv (g.view_ne_link v n)
  | _ =>
    simp only [unroll, hv]
    rfl

def Unrolled (g : Graph) (depth : Nat) (v v' : Value) : Prop :=
  ∃ levels, 2 * depth + 1 ≤ levels ∧ v' = unroll g levels v

theorem partAlike_unroll {depth levels : Nat} (h : 2 * depth + 1 ≤ levels) (v : Value) :
    PartAlike g .empty (Unrolled g depth) v (unroll g levels v) :=
  ⟨isMap_unroll levels v, fun _ => ⟨levels, h, rfl⟩⟩

/-- From one fragment to the next there are two collections at most, a list of members and the next.
-/
theorem readAlike_unroll (hg : g.NamesCollections) {depth levels : Nat}
    (h : 2 * depth + 1 ≤ levels) :
    ReadAlike g .empty (Unrolled g depth) es (es.mapValues (unroll g (levels + 1))) := by
  obtain ⟨levels, rfl⟩ : ∃ k, levels = k + 1 := ⟨levels - 1, by omega⟩
  refine ⟨isUnion_unroll _ es, ?_, keyword_unroll hg _ es, ?_, ?_, ?_⟩
  · rw [unionMembers?_unroll]
    cases unionMembers? g es with
    | none => exact .none
    | some ms =>
      refine .some ?_
      rw [candidates_unroll, List.forall₂_map_right_iff, List.forall₂_same]
      exact fun m _ => ⟨typed_unroll levels m "object", levels + 1, h, rfl⟩
  · simp only [isTimeFormat, field_unroll, str?_unroll]
  · rw [field_unroll]
    exact partAlike_unroll (by omega) _
  · rw [field_unroll]
    exact partAlike_unroll (by omega) _

theorem bareSign_unroll (levels : Nat) (es : Entries) :
    bareSign .empty (es.mapValues (unroll g (levels + 2))) = bareSign g es := by
  have hunion : unionSign .empty (es.mapValues (unroll g (levels + 2))) = unionSign g es := by
    rw [unionSign, unionSign, unionMembers?_unroll]
    cases unionMembers? g es with
    | none => rfl
    | some ms => simp [List.any_map, Function.comp_def, typed_unroll]
  have hlist : listSign .empty (es.mapValues (unroll g (levels + 2))) = listSign g es := by
    rw [listSign, listSign, field_unroll, items?_unroll]
    cases g.items? (es.field "type") with
    | none => rfl
    | some words => simp only [Option.map_some, Option.any_some, texts_unroll]
  rw [bareSign, bareSign, isUnion_unroll, hunion, hlist, field_unroll, isTrue_unroll]

theorem refType_not_text {ref : Value} (h : ref.str? = none) : refType ref = .any := by
  unfold refType
  split
  · cases h
  · rfl

theorem refType_unroll (levels : Nat) (ref : Value) :
    refType (unroll g levels ref) = refType ref := by
  have htext := str?_unroll (g := g) levels ref
  cases hs : ref.str? with
  | none => rw [refType_not_text hs, refType_not_text (htext.trans hs)]
  | some text =>
    obtain rfl := Value.str?_eq_some_iff.mp hs
    rw [unroll_scalar]

theorem mapsAlike_unroll (hg : g.NamesCollections) {depth levels : Nat}
    (h : 2 * depth + 1 ≤ levels) (v : Value) :
    Option.Rel (MapAlike g .empty (Unrolled g depth)) (g.entries? v)
      (Graph.empty.entries? (unroll g (levels + 2) v)) := by
  rw [entries?_unroll]
  cases g.entries? v with
  | none => exact .none
  | some es =>
    refine .some ⟨?_, readAlike_unroll hg h⟩
    rw [Entries.value?_mapValues, Option.map_map]
    congr 1
    funext ref
    exact refType_unroll _ ref

theorem typeWithin_unroll (hg : g.NamesCollections) {depth levels : Nat}
    (h : 2 * depth + 1 ≤ levels) (v : Value) :
    typeWithin .empty depth (unroll g levels v) = typeWithin g depth v := by
  induction depth generalizing levels v with
  | zero => rfl
  | succ depth ih =>
    obtain ⟨levels, rfl⟩ : ∃ k, levels = k + 3 := ⟨levels - 3, by omega⟩
    have hmaps := mapsAlike_unroll hg (show 2 * depth + 1 ≤ levels + 1 by omega) v
    have hsign : sign .empty (unroll g (levels + 3) v) = sign g v := by
      apply sign_alike hmaps
      intro es es' he he'
      rw [entries?_unroll, he, Option.map_some] at he'
      obtain rfl := Option.some.inj he'
      exact bareSign_unroll levels es
    rw [typeWithin, typeWithin, stepType_eq, stepType_eq, hsign, (form_alike hmaps).type_eq]
    rintro u u' ⟨k, hk, rfl⟩
    exact ih hk u

end Schema

end OpenApiIR
