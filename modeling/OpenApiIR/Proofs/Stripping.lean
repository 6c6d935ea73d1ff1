import OpenApiIR.Proofs.Nullability
import OpenApiIR.Proofs.Reading

/-! Signs of null taken out of a fragment and of the fragments inside. What is left has the same
type but for the flags, and none of these is up: being nullable and being of some structure do not
mix. -/

namespace OpenApiIR

namespace Schema

def stripWords (g : Graph) (v : Value) : Value :=
  match g.items? v with
  | some words => .seq (words.filter fun w => w ≠ .str "null")
  | none => v

def stripMembers (g : Graph) (inner : Value → Value) (v : Value) : Value :=
  match g.items? v with
  | some ms => .seq ((ms.filter fun m => !typed g m "null").map inner)
  | none => v

def stripField (g : Graph) (inner : Value → Value) (key : Scalar) : Value → Value :=
  if key = .str "type" then stripWords g
  else if key = .str "items" ∨ key = .str "additionalProperties" then inner
  else if key = .str "anyOf" ∨ key = .str "oneOf" then stripMembers g inner
  else id

def stripEntries (g : Graph) (inner : Value → Value) (es : Entries) : Entries :=
  (es.filter fun e => e.1 ≠ .str "nullable").map fun e => (e.1, stripField g inner e.1 e.2)

/-- Leave out each `nullable` key, each null in a list of types and each null member of a union, in
a fragment and in those inside it, this many levels down. What is no map stays as it is. -/
def strip (g : Graph) : (levels : Nat) → Value → Value
  | 0, v => v
  | levels + 1, v => match g.entries? v with
    | some es => .map (stripEntries g (strip g levels) es)
    | none => v

/-- Maps stay maps, with the type that they state if that is a word. -/
structure KeepsWord (g : Graph) (inner : Value → Value) : Prop where
  null : inner .null = .null
  isMap : ∀ v, g.isMap (inner v) = g.isMap v
  typed : ∀ v word, typed g (inner v) word = typed g v word

variable {g : Graph} {inner : Value → Value} {es : Entries}

theorem value?_stripEntries {name : String} (h : name ≠ "nullable") :
    (stripEntries g inner es).value? (.str name) =
      (es.value? (.str name)).map (stripField g inner (.str name)) := by
  rw [stripEntries, Entries.value?_map, Entries.value?_without h]

theorem field_stripEntries {name : String} (h : name ≠ "nullable")
    (hn : stripField g inner (.str name) .null = .null) :
    (stripEntries g inner es).field name = stripField g inner (.str name) (es.field name) := by
  unfold Entries.field
  rw [value?_stripEntries h]
  cases es.value? (.str name) with
  | none => exact hn.symm
  | some v => rfl

theorem declares_stripEntries {name : String} (h : name ≠ "nullable") :
    (stripEntries g inner es).declares name = es.declares name := by
  unfold Entries.declares
  rw [value?_stripEntries h, Option.isSome_map]

theorem field_type_strip :
    (stripEntries g inner es).field "type" = stripWords g (es.field "type") :=
  field_stripEntries (by decide) rfl

theorem field_nullable_strip : (stripEntries g inner es).field "nullable" = .null := by
  rw [Entries.field, stripEntries, Entries.value?_map, Entries.value?_self_without]
  rfl

theorem str?_stripWords (v : Value) : (stripWords g v).str? = v.str? := by
  unfold stripWords
  cases hi : g.items? v with
  | none => rfl
  | some words => cases v <;> simp_all [Graph.items?, Value.str?]

theorem hasType_strip (word : String) :
    hasType (stripEntries g inner es) word = hasType es word := by
  unfold hasType
  rw [field_type_strip, str?_stripWords]

theorem strip_map {v : Value} (h : g.entries? v = some es) (levels : Nat) :
    strip g (levels + 1) v = .map (stripEntries g (strip g levels) es) := by
  simp only [strip, h]

theorem strip_not_map {v : Value} (h : g.entries? v = none) (levels : Nat) :
    strip g levels v = v := by
  cases levels with
  | zero => rfl
  | succ levels => simp only [strip, h]

theorem keepsWord_strip (g : Graph) (levels : Nat) : KeepsWord g (strip g levels) := by
  refine ⟨strip_not_map rfl levels, fun v => ?_, fun v word => ?_⟩
  · cases he : g.entries? v with
    | none => rw [strip_not_map he]
    | some es =>
      cases levels with
      | zero => rfl
      | succ levels =>
        rw [strip_map he, Graph.isMap_iff.mpr ⟨es, he⟩]
        rfl
  · cases he : g.entries? v with
    | none => rw [strip_not_map he]
    | some es =>
      cases levels with
      | zero => rfl
      | succ levels => rw [strip_map he, typed_eq he, typed_eq rfl, hasType_strip]

theorem unionMembers?_strip : unionMembers? g (stripEntries g inner es) =
    (unionMembers? g es).map fun ms => (ms.filter fun m => !typed g m "null").map inner := by
  have hitems : ∀ v, g.items? (stripMembers g inner v) =
      (g.items? v).map fun ms => (ms.filter fun m => !typed g m "null").map inner := by
    intro v
    unfold stripMembers
    cases hi : g.items? v with
    | none => exact hi
    | some ms => rfl
  have hnull : ∀ v, (stripMembers g inner v).isNull = v.isNull := by
    intro v
    unfold stripMembers
    cases hi : g.items? v with
    | none => rfl
    | some ms => cases v <;> simp_all [Graph.items?, Value.isNull]
  have hany : (stripEntries g inner es).field "anyOf" = stripMembers g inner (es.field "anyOf") :=
    field_stripEntries (by decide) rfl
  have hone : (stripEntries g inner es).field "oneOf" = stripMembers g inner (es.field "oneOf") :=
    field_stripEntries (by decide) rfl
  simp only [unionMembers?, hany, hone, hnull]
  split
  · exact hitems _
  · exact hitems _

theorem candidates_strip (h : KeepsWord g inner) (ms : List Value) :
    candidates g ((ms.filter fun m => !typed g m "null").map inner) =
      (candidates g ms).map inner := by
  have hkeep : (fun m => g.isMap m && !typed g m "null") ∘ inner =
      fun m => g.isMap m && !typed g m "null" := by
    funext m
    simp only [Function.comp_apply, h.isMap, h.typed]
  unfold candidates
  rw [List.filter_map, hkeep, List.filter_filter]
  congr 2
  funext m
  cases typed g m "null" <;> simp

theorem isUnion_strip : isUnion (stripEntries g inner es) = isUnion es := by
  rw [isUnion, isUnion, declares_stripEntries (by decide), declares_stripEntries (by decide)]

theorem firstWord?_without_null (words : List Value) :
    firstWord? (words.filter fun w => w ≠ .str "null") = firstWord? words := by
  induction words with
  | nil => rfl
  | cons w rest ih =>
    by_cases hw : w = .str "null"
    · have hskip : firstWord? (.str "null" :: rest) = firstWord? rest := rfl
      rw [hw, hskip, ← ih]
      simp
    · cases ht : w.str? with
      | none => simpa [firstWord?, hw, ht] using ih
      | some text =>
        have hn : text ≠ "null" := by
          rintro rfl
          exact hw (Value.str?_eq_some_iff.mp ht)
        simp [firstWord?, hw, ht, hn]

/-- The first word of a list is the first that is not null, so taking null out leaves it. -/
theorem keyword_strip : keyword g (stripEntries g inner es) = keyword g es := by
  unfold keyword
  rw [field_type_strip]
  unfold stripWords
  cases hi : g.items? (es.field "type") with
  | none => rfl
  | some words =>
    have hv := Graph.items?_eq_some_iff.mp hi
    simp only [hv, Graph.view_seq, firstWord?_without_null]

theorem partAlike_strip (h : KeepsWord g inner) (v : Value) :
    PartAlike g g (fun v v' => v' = inner v) v (inner v) :=
  ⟨h.isMap v, fun _ => rfl⟩

theorem readAlike_strip (h : KeepsWord g inner) :
    ReadAlike g g (fun v v' => v' = inner v) es (stripEntries g inner es) := by
  have hitems : (stripEntries g inner es).field "items" = inner (es.field "items") :=
    field_stripEntries (by decide) h.null
  have hvalues : (stripEntries g inner es).field "additionalProperties" =
      inner (es.field "additionalProperties") := field_stripEntries (by decide) h.null
  have hformat : (stripEntries g inner es).field "format" = es.field "format" :=
    field_stripEntries (by decide) rfl
  refine ⟨isUnion_strip, ?_, keyword_strip, by rw [hformat], ?_, ?_⟩
  · rw [unionMembers?_strip]
    cases unionMembers? g es with
    | none => exact .none
    | some ms =>
      refine .some ?_
      rw [candidates_strip h, List.forall₂_map_right_iff, List.forall₂_same]
      exact fun m _ => ⟨h.typed m "object", rfl⟩
  · rw [hitems]
    exact partAlike_strip h _
  · rw [hvalues]
    exact partAlike_strip h _

theorem bareSign_strip (h : KeepsWord g inner) : bareSign g (stripEntries g inner es) = false := by
  have hunion : unionSign g (stripEntries g inner es) = false := by
    rw [unionSign, unionMembers?_strip]
    cases unionMembers? g es with
    | none => rfl
    | some ms => simp [h.typed]
  have hlist : listSign g (stripEntries g inner es) = false := by
    rw [listSign, field_type_strip, stripWords]
    cases hi : g.items? (es.field "type") with
    | none => simp only [hi, Option.any_none]
    | some words => simp [Graph.items?, Value.str?_eq_some_iff]
  rw [bareSign, hunion, hlist, field_nullable_strip]
  split <;> rfl

end Schema

theorem TypeRef.cleared_orNullable (t : TypeRef) (b : Bool) :
    (t.orNullable b).cleared = t.cleared := by
  cases t with
  | mk k n item r => cases item <;> rfl

theorem TypeRef.cleared_cleared : ∀ t : TypeRef, t.cleared.cleared = t.cleared
  | ⟨_, _, some t, _⟩ => by simp only [cleared, cleared_cleared t]
  | ⟨_, _, none, _⟩ => rfl

theorem TypeRef.items_cleared : ∀ t : TypeRef, ∀ s ∈ t.cleared ::
    t.cleared.items, s.nullable = false
  | ⟨k, n, some t, r⟩ => by
    intro s hs
    rcases List.mem_cons.mp hs with rfl | hs
    · rfl
    · exact items_cleared t s hs
  | ⟨k, n, none, r⟩ => by
    intro s hs
    rw [List.mem_singleton.mp hs]
    rfl

namespace Schema

theorem Form.Agree.type_cleared {R : Value → Value → Prop} {inner inner' : Value → TypeRef}
    {f f' : Form} (h : f.Agree R f') (hk : ∀ t, f = .known t → t.cleared = t)
    (hi : ∀ v v', R v v' → inner' v' = (inner v).cleared) :
    f'.type inner' = (f.type inner).cleared := by
  cases h with
  | known t => exact (hk t rfl).symm
  | like hr => exact hi _ _ hr
  | list hr => exact congrArg TypeRef.listOf (hi _ _ hr)
  | map hr => exact congrArg TypeRef.mapOf (hi _ _ hr)

theorem form_strip (g : Graph) (depth : Nat) (v : Value) :
    (form g v).Agree (fun u u' => u' = strip g depth u) (form g (strip g (depth + 1) v)) := by
  apply form_alike
  cases he : g.entries? v with
  | none =>
    rw [strip_not_map he, he]
    exact .none
  | some es =>
    rw [strip_map he]
    refine .some ⟨?_, readAlike_strip (keepsWord_strip g depth)⟩
    rw [value?_stripEntries (by decide), Option.map_map]
    rfl

theorem sign_strip (g : Graph) (depth : Nat) (v : Value) :
    sign g (strip g (depth + 1) v) = false := by
  cases he : g.entries? v with
  | none => rw [strip_not_map he, (form_not_map he).2]
  | some es =>
    have hleft : g.entries? (strip g (depth + 1) v) = some (stripEntries g (strip g depth) es) := by
      rw [strip_map he]
      rfl
    rw [sign, hleft]
    dsimp only
    rw [bareSign_strip (keepsWord_strip g depth), Bool.and_false]

/-- The type of what is left is the type without its flags. -/
theorem typeWithin_strip (g : Graph) {levels depth : Nat} (h : levels ≤ depth) (v : Value) :
    typeWithin g levels (strip g depth v) = (typeWithin g levels v).cleared := by
  induction levels generalizing depth v with
  | zero => rfl
  | succ levels ih =>
    obtain ⟨depth, rfl⟩ : ∃ d, depth = d + 1 := ⟨depth - 1, by omega⟩
    rw [typeWithin, typeWithin, stepType_eq, stepType_eq, TypeRef.cleared_orNullable, sign_strip,
      TypeRef.orNullable_false]
    apply (form_strip g depth v).type_cleared fun t ht => known_cleared ht
    rintro u u' rfl
    exact ih (Nat.le_of_succ_le_succ h) u

/-- A finite fragment has only so many levels to take signs out of. -/
theorem strip_settled (levels levels' : Nat) (v : Value) (h : sizeOf v ≤ levels)
    (h' : sizeOf v ≤ levels') : strip .empty levels v = strip .empty levels' v := by
  induction levels generalizing levels' v with
  | zero => cases v <;> simp at h
  | succ levels ih =>
    cases he : Graph.empty.entries? v with
    | none => rw [strip_not_map he, strip_not_map he]
    | some es =>
      obtain rfl := Graph.eq_map_of_empty he
      obtain ⟨levels', rfl⟩ : ∃ n, levels' = n + 1 := by
        cases levels' with
        | zero => simp at h'
        | succ n => exact ⟨n, rfl⟩
      have hinner : ∀ u, sizeOf u < sizeOf (Value.map es) →
          strip .empty levels u = strip .empty levels' u := by
        intro u hu
        exact ih levels' u (by omega) (by omega)
      rw [strip_map he, strip_map he]
      congr 1
      apply List.map_congr_left
      intro e hm
      have hsize := Value.sizeOf_entry (List.mem_filter.mp hm).1
      congr 1
      unfold stripField
      split
      · rfl
      split
      · exact hinner e.2 hsize
      split
      · unfold stripMembers
        cases hi : Graph.empty.items? e.2 with
        | none => rfl
        | some ms =>
          have hseq := Graph.eq_seq_of_empty hi
          dsimp only
          congr 1
          apply List.map_congr_left
          intro m hmm
          have hitem := Value.sizeOf_item (List.mem_filter.mp hmm).1
          exact hinner m (by rw [← hseq] at hitem; omega)
      · rfl

/-- However deep the signs of null are taken out, if only as deep as fragments are read: no flag is
up any more, and but for the flags the type stays what it was. In a finite fragment that comes to an
end. -/
theorem strip_clears (g : Graph) (v : Value) :
    (∀ levels, depthLimit < levels →
      (∀ t ∈ typeOf g (strip g levels v) :: (typeOf g (strip g levels v)).items,
        t.nullable = false) ∧
        (typeOf g (strip g levels v)).cleared = (typeOf g v).cleared) ∧
    ∃ n, ∀ levels, n ≤ levels → strip .empty levels v = strip .empty n v := by
  constructor
  · intro levels h
    have hstrip : typeOf g (strip g levels v) = (typeOf g v).cleared := typeWithin_strip g h v
    rw [hstrip]
    exact ⟨TypeRef.items_cleared _, TypeRef.cleared_cleared _⟩
  · refine ⟨sizeOf v, ?_⟩
    intro levels h
    exact strip_settled levels (sizeOf v) v h (Nat.le_refl _)

def nest : Value := .map [(.str "type", .str "array"), (.str "nullable", .bool true),
  (.str "items", .map [(.str "anyOf", .seq [.map [(.str "type", .str "null")], .link 0])])]

theorem nest_without_null : (typeOf (.ofCells #[nest]) nest).nullable = true ∧
    (∀ t ∈ typeOf (.ofCells #[nest]) (strip (.ofCells #[nest]) 65 nest) ::
      (typeOf (.ofCells #[nest]) (strip (.ofCells #[nest]) 65 nest)).items, t.nullable = false) ∧
    (typeOf (.ofCells #[nest]) (strip (.ofCells #[nest]) 65 nest)).cleared =
    (typeOf (.ofCells #[nest]) nest).cleared := by
  have hnull : (typeOf (.ofCells #[nest]) nest).nullable = true := by decide +kernel
  have hclear := (strip_clears (.ofCells #[nest]) nest).1 65 (by decide)
  exact ⟨hnull, hclear.1, hclear.2⟩

end Schema

end OpenApiIR
