import OpenApiIR.Proofs.Report
import OpenApiIR.Schema.Model

/-! Two graphs side by side. A relation between the values of the one and those of the other mirrors
them when related values look alike and have related parts. All that is resolved from a fragment
goes by such looks, so related fragments have the same type and give the same model. -/

namespace OpenApiIR

def Value.scalar? : Value → Option Scalar
  | .scalar s => some s
  | _ => none

/-- What is the same for all values but scalars goes by the scalar alone. -/
theorem Value.eq_of_scalar? {α : Type} {f : Value → α} {a : α}
    (hf : ∀ v, v.scalar? = none → f v = a) {v v' : Value} (h : v'.scalar? = v.scalar?) :
    f v' = f v := by
  cases hv : v.scalar? with
  | none => rw [hf v hv, hf v' (h.trans hv)]
  | some s =>
    have eq_scalar : ∀ {w : Value}, w.scalar? = some s → w = .scalar s := by
      intro w hw
      cases w <;> simp_all [Value.scalar?]
    rw [eq_scalar hv, eq_scalar (h.trans hv)]

section SameScalar

variable {v v' : Value} (h : v'.scalar? = v.scalar?)

include h

theorem Value.str?_congr : v'.str? = v.str? :=
  Value.eq_of_scalar? (fun v hv => by cases v <;> first | rfl | cases hv) h

theorem Value.isTrue_congr : v'.isTrue = v.isTrue :=
  Value.eq_of_scalar? (fun v hv => by cases v <;> first | rfl | cases hv) h

theorem Value.isNull_congr : v'.isNull = v.isNull :=
  Value.eq_of_scalar? (fun v hv => by cases v <;> first | rfl | cases hv) h

theorem Schema.refType_congr : refType v' = refType v :=
  Value.eq_of_scalar? (fun v hv => by cases v <;> first | rfl | cases hv) h

theorem Schema.requiredName?_congr : requiredName? v' = requiredName? v := by
  refine Value.eq_of_scalar? (a := none) (fun v hv => ?_) h
  cases v with
  | scalar s => cases hv
  | _ => rfl

theorem Schema.requiredLimit?_congr : requiredLimit? v' = requiredLimit? v := by
  refine Value.eq_of_scalar? (a := none) (fun v hv => ?_) h
  cases v with
  | scalar s => cases hv
  | _ => rfl

end SameScalar

theorem Schema.texts_congr {ws ws' : List Value}
    (h : List.Forall₂ (fun w w' => w'.scalar? = w.scalar?) ws ws') :
    ws'.filterMap Value.str? = ws.filterMap Value.str? := by
  induction h with
  | nil => rfl
  | cons hw _ ih => simp only [List.filterMap_cons, Value.str?_congr hw, ih]

theorem Schema.required_congr {ws ws' : List Value}
    (h : List.Forall₂ (fun w w' => w'.scalar? = w.scalar?) ws ws') :
    ws'.filterMap requiredName? = ws.filterMap requiredName? ∧
      ws'.findSome? requiredLimit? = ws.findSome? requiredLimit? := by
  induction h with
  | nil => exact ⟨rfl, rfl⟩
  | cons hw _ ih =>
    constructor
    · simp only [List.filterMap_cons, Schema.requiredName?_congr hw, ih.1]
    · simp only [List.findSome?_cons, Schema.requiredLimit?_congr hw, ih.2]

/-- Equal keys in the same order, and values in a relation. -/
def Entries.Alike (R : Value → Value → Prop) : Entries → Entries → Prop :=
  List.Forall₂ fun e e' => e'.1 = e.1 ∧ R e.2 e'.2

/-- Equal keys in the same order, and values in a relation at least under one key. -/
def Entries.AlikeAt (R : Value → Value → Prop) (k : Scalar) : Entries → Entries → Prop :=
  List.Forall₂ fun e e' => e'.1 = e.1 ∧ (e.1.sameKey k = true → R e.2 e'.2)

/-- The same scalar, or collections of one kind with parts in a relation. What pairs and sets hold
is never looked at. -/
inductive Value.Alike (R : Value → Value → Prop) : Value → Value → Prop where
  | scalar (s : Scalar) : Alike R (.scalar s) (.scalar s)
  | seq {xs ys : List Value} : List.Forall₂ R xs ys → Alike R (.seq xs) (.seq ys)
  | pair (v w v' w' : Value) : Alike R (.pair v w) (.pair v' w')
  | map {es es' : Entries} : Entries.Alike R es es' → Alike R (.map es) (.map es')
  | set (ms ms' : List Scalar) : Alike R (.set ms) (.set ms')

structure Graph.Mirrors (g g' : Graph) (R : Value → Value → Prop) : Prop where
  null : R .null .null
  scalar : ∀ {v v'}, R v v' → v'.scalar? = v.scalar?
  view : ∀ {v v'}, R v v' → Value.Alike R (g.view v) (g'.view v')

variable {g g' : Graph} {R : Value → Value → Prop} {v v' : Value} {es es' : Entries}

namespace Entries

theorem AlikeAt.value?_cases {k : Scalar} (h : es.AlikeAt R k es') :
    (es.value? k = none ∧ es'.value? k = none) ∨
      ∃ w w', es.value? k = some w ∧ es'.value? k = some w' ∧ R w w' := by
  induction h with
  | nil => exact Or.inl ⟨rfl, rfl⟩
  | @cons e e' rest rest' he _ ih =>
    by_cases hk : e.1.sameKey k = true
    · have hk' : e'.1.sameKey k = true := by rw [he.1, hk]
      exact Or.inr ⟨e.2, e'.2, by simp [value?, hk], by simp [value?, hk'], he.2 hk⟩
    · have hk' : e'.1.sameKey k ≠ true := by rw [he.1]; exact hk
      simpa [value?, List.find?_cons, hk, hk'] using ih

theorem Alike.at (h : es.Alike R es') (k : Scalar) : es.AlikeAt R k es' :=
  h.imp fun _ _ he => ⟨he.1, fun _ => he.2⟩

theorem Alike.value?_cases (h : es.Alike R es') (k : Scalar) :
    (es.value? k = none ∧ es'.value? k = none) ∨
      ∃ w w', es.value? k = some w ∧ es'.value? k = some w' ∧ R w w' := (h.at k).value?_cases

end Entries

theorem Entries.Alike.declares (h : es.Alike R es') (name : String) :
    es'.declares name = es.declares name := by
  rcases h.value?_cases (.str name) with ⟨hn, hn'⟩ | ⟨w, w', hw, hw', _⟩
  · simp [Entries.declares, hn, hn']
  · simp [Entries.declares, hw, hw']

namespace Graph

theorem kindName_view (g : Graph) (v : Value) : g.kindName (g.view v) = g.kindName v := by
  simp only [kindName, view_view]

namespace Mirrors

variable (M : g.Mirrors g' R)

include M

theorem entries?_cases (h : R v v') :
    (g.entries? v = none ∧ g'.entries? v' = none) ∨
      ∃ es es', g.entries? v = some es ∧ g'.entries? v' = some es' ∧ es.Alike R es' := by
  have hv := M.view h
  unfold entries?
  generalize g.view v = a, g'.view v' = a' at hv
  cases hv with
  | map he => exact Or.inr ⟨_, _, rfl, rfl, he⟩
  | _ => exact Or.inl ⟨rfl, rfl⟩

theorem items?_cases (h : R v v') :
    (g.items? v = none ∧ g'.items? v' = none) ∨
      ∃ xs ys, g.items? v = some xs ∧ g'.items? v' = some ys ∧ List.Forall₂ R xs ys := by
  have hv := M.view h
  unfold items?
  generalize g.view v = a, g'.view v' = a' at hv
  cases hv with
  | seq hs => exact Or.inr ⟨_, _, rfl, rfl, hs⟩
  | _ => exact Or.inl ⟨rfl, rfl⟩

theorem isMap (h : R v v') : g'.isMap v' = g.isMap v := by
  rcases M.entries?_cases h with ⟨he, he'⟩ | ⟨es, es', he, he', _⟩
  · simp [Graph.isMap, he, he']
  · simp [Graph.isMap, he, he']

theorem kindName (h : R v v') : g'.kindName v' = g.kindName v := by
  have hv := M.view h
  unfold Graph.kindName
  generalize g.view v = a, g'.view v' = a' at hv
  cases hv <;> rfl

theorem kindName_view (h : R v v') : g'.kindName (g'.view v') = g.kindName (g.view v) := by
  rw [Graph.kindName_view, Graph.kindName_view, M.kindName h]

theorem fieldAt {name : String} (h : es.AlikeAt R (.str name) es') :
    R (es.field name) (es'.field name) := by
  unfold Entries.field
  rcases h.value?_cases with ⟨hn, hn'⟩ | ⟨w, w', hw, hw', hr⟩
  · rw [hn, hn']
    exact M.null
  · rw [hw, hw']
    exact hr

theorem field (h : es.Alike R es') (name : String) : R (es.field name) (es'.field name) :=
  M.fieldAt (h.at (.str name))

theorem str? (h : R v v') : v'.str? = v.str? := Value.str?_congr (M.scalar h)

theorem asText (h : R v v') : v'.asText = v.asText :=
  Value.eq_of_scalar? (fun v hv => by cases v <;> first | rfl | cases hv) (M.scalar h)

theorem isTrue (h : R v v') : v'.isTrue = v.isTrue := Value.isTrue_congr (M.scalar h)

theorem isNull (h : R v v') : v'.isNull = v.isNull := Value.isNull_congr (M.scalar h)

theorem hasType (h : es.Alike R es') (word : String) :
    Schema.hasType es' word = Schema.hasType es word := by
  simp only [Schema.hasType, M.str? (M.field h "type")]

end Mirrors

end Graph

namespace Schema

variable (M : g.Mirrors g' R) {inner inner' : Value → TypeRef}

def MembersAlike (R : Value → Value → Prop) :
    List (Value × Entries) → List (Value × Entries) → Prop :=
  List.Forall₂ fun m m' => R m.1 m'.1 ∧ m.2.Alike R m'.2

include M

theorem mapMembers_mirror {ms ms' : List Value} (h : List.Forall₂ R ms ms') :
    MembersAlike R (mapMembers g ms) (mapMembers g' ms') := by
  induction h with
  | nil => exact .nil
  | cons hr _ ih =>
    unfold mapMembers at ih ⊢
    rcases M.entries?_cases hr with ⟨he, he'⟩ | ⟨es, es', he, he', ha⟩
    · simpa only [List.filterMap_cons, he, he', Option.map_none] using ih
    · simp only [List.filterMap_cons, he, he', Option.map_some]
      exact .cons ⟨hr, ha⟩ ih

theorem admitsNull_mirror {ms ms' : List (Value × Entries)} (h : MembersAlike R ms ms') :
    admitsNull ms' = admitsNull ms := by
  unfold admitsNull
  induction h with
  | nil => rfl
  | cons hm _ ih => rw [List.any_cons, List.any_cons, M.hasType hm.2, ih]

theorem filter_mirror (word : String) {ms ms' : List (Value × Entries)}
    (h : MembersAlike R ms ms') :
    MembersAlike R (ms.filter fun m => !hasType m.2 word) (ms'.filter fun m => !hasType m.2 word) :=
  List.rel_filter (fun m m' hm => by simp only [M.hasType hm.2 word]) h

theorem find?_mirror (word : String) {ms ms' : List (Value × Entries)} (h : MembersAlike R ms ms') :
    (ms.find? (fun m => !hasType m.2 word) = none ∧
      ms'.find? (fun m => !hasType m.2 word) = none) ∨
    ∃ m m', ms.find? (fun m => !hasType m.2 word) = some m ∧
      ms'.find? (fun m => !hasType m.2 word) = some m' ∧ R m.1 m'.1 := by
  induction h with
  | nil => exact Or.inl ⟨rfl, rfl⟩
  | @cons m m' _ _ hm _ ih =>
    have ht := M.hasType hm.2 word
    cases hw : hasType m.2 word with
    | true => simpa [hw, ht] using ih
    | false => exact Or.inr ⟨m, m', by simp [hw], by simp [ht, hw], hm.1⟩

theorem primary?_mirror {ms ms' : List (Value × Entries)} (h : MembersAlike R ms ms') :
    (primary? ms = none ∧ primary? ms' = none) ∨
      ∃ w w', primary? ms = some w ∧ primary? ms' = some w' ∧ R w w' := by
  have hc := filter_mirror M "null" h
  unfold primary?
  dsimp only
  rcases find?_mirror M "object" hc with ⟨hn, hn'⟩ | ⟨m, m', hm, hm', hr⟩
  · rw [hn, hn', Option.none_or, Option.none_or]
    -- All candidates are objects, so the first of them counts.
    generalize ms.filter (fun m => !hasType m.2 "null") = cs,
      ms'.filter (fun m => !hasType m.2 "null") = cs' at hc
    cases hc with
    | nil => exact Or.inl ⟨rfl, rfl⟩
    | cons hr _ => exact Or.inr ⟨_, _, rfl, rfl, hr.1⟩
  · rw [hm, hm']
    exact Or.inr ⟨_, _, rfl, rfl, hr⟩

theorem unionMembers?_mirror (h : es.Alike R es') :
    (unionMembers? g es = none ∧ unionMembers? g' es' = none) ∨
      ∃ ms ms', unionMembers? g es = some ms ∧ unionMembers? g' es' = some ms' ∧
        List.Forall₂ R ms ms' := by
  unfold unionMembers?
  dsimp only
  rw [M.isNull (M.field h "anyOf")]
  split
  · exact M.items?_cases (M.field h "oneOf")
  · exact M.items?_cases (M.field h "anyOf")

theorem unionType_mirror (hi : ∀ w w', R w w' → inner' w' = inner w) (h : es.Alike R es') :
    unionType g' inner' es' = unionType g inner es := by
  unfold unionType
  rcases unionMembers?_mirror M h with ⟨hn, hn'⟩ | ⟨ms, ms', hm, hm', hr⟩
  · rw [hn, hn']
  · have hms := mapMembers_mirror M hr
    simp only [hm, hm', admitsNull_mirror M hms]
    rcases primary?_mirror M hms with ⟨hp, hp'⟩ | ⟨w, w', hp, hp', hw⟩
    · rw [hp, hp']
    · rw [hp, hp']
      dsimp only
      rw [hi w w' hw]

theorem typeArrayType_mirror {ws ws' : List Value} (h : List.Forall₂ R ws ws') :
    typeArrayType ws' = typeArrayType ws := by
  simp only [typeArrayType, texts_congr (h.imp fun _ _ => M.scalar)]

theorem scalarType_mirror (hi : ∀ w w', R w w' → inner' w' = inner w) (h : es.Alike R es')
    (word : String) : scalarType g' inner' es' word = scalarType g inner es word := by
  have part : ∀ key, (if g'.isMap (es'.field key) then inner' (es'.field key) else .any) =
      if g.isMap (es.field key) then inner (es.field key) else .any := by
    intro key
    rw [M.isMap (M.field h key), hi _ _ (M.field h key)]
  have format : isTimeFormat (es'.field "format") = isTimeFormat (es.field "format") := by
    simp only [isTimeFormat, M.str? (M.field h "format")]
  unfold scalarType
  dsimp only
  rw [format, part, part]

theorem bareType_mirror (hi : ∀ w w', R w w' → inner' w' = inner w) (h : es.Alike R es') :
    bareType g' inner' es' = bareType g inner es := by
  unfold bareType
  rw [h.declares "anyOf", h.declares "oneOf", unionType_mirror M hi h]
  have hscalar := fun word => scalarType_mirror M hi h word
  have hv := M.view (M.field h "type")
  generalize g.view (es.field "type") = a, g'.view (es'.field "type") = a' at hv
  cases hv with
  | seq hs => simp only [typeArrayType_mirror M hs]
  | scalar s => simp only [hscalar]
  | _ => rfl

theorem refType_mirror (h : R v v') : refType v' = refType v := refType_congr (M.scalar h)

theorem stepType_mirror (hi : ∀ w w', R w w' → inner' w' = inner w) (h : R v v') :
    stepType g' inner' v' = stepType g inner v := by
  unfold stepType
  rcases M.entries?_cases h with ⟨he, he'⟩ | ⟨es, es', he, he', ha⟩
  · rw [he, he']
  · rw [he, he']
    dsimp only
    rcases ha.value?_cases (.str "$ref") with ⟨hn, hn'⟩ | ⟨w, w', hw, hw', hr⟩
    · rw [hn, hn']
      dsimp only
      rw [bareType_mirror M hi ha, M.isTrue (M.field ha "nullable")]
    · rw [hw, hw']
      exact refType_mirror M hr

theorem typeOf_mirror (h : R v v') : typeOf g' v' = typeOf g v := by
  -- Each level asks for other fragments, so the induction is for all of them at once.
  have within : ∀ (levels : Nat) (v v' : Value), R v v' →
      typeWithin g' levels v' = typeWithin g levels v := by
    intro levels
    induction levels with
    | zero => exact fun _ _ _ => rfl
    | succ levels ih => exact fun v v' h => stepType_mirror M ih h
  exact within (depthLimit + 1) v v' h

theorem resolveProperty_mirror (h : R v v') (name : String) (isRequired : Bool) :
    resolveProperty g' name v' isRequired = resolveProperty g name v isRequired := by
  unfold resolveProperty
  rw [typeOf_mirror M h]
  rcases M.entries?_cases h with ⟨he, he'⟩ | ⟨es, es', he, he', ha⟩
  · rw [he, he']
  · rw [he, he']
    dsimp only
    rw [M.asText (M.field ha "description")]

theorem propertyEntry_mirror (model : String) (required : List String) {e e' : Scalar × Value}
    (hk : e'.1 = e.1) (h : R e.2 e'.2) :
    propertyEntry g' model required e' = propertyEntry g model required e := by
  simp only [propertyEntry, hk, M.isMap h, M.kindName h, resolveProperty_mirror M h]

theorem propertiesOf?_mirror (h : es.Alike R es') :
    (∃ r, (r = .ok none ∨ ∃ p, r = .error p) ∧
      propertiesOf? g es = r ∧ propertiesOf? g' es' = r) ∨
      ∃ ps ps', propertiesOf? g es = .ok (some ps) ∧ propertiesOf? g' es' = .ok (some ps') ∧
        ps.Alike R ps' := by
  have hf := M.field h "properties"
  have hv := M.view hf
  have hkind := M.kindName_view hf
  unfold propertiesOf?
  rw [M.hasType h "object"]
  generalize g.view (es.field "properties") = a, g'.view (es'.field "properties") = a' at hv hkind
  cases hv with
  | map hps => exact Or.inr ⟨_, _, rfl, rfl, hps⟩
  | scalar s =>
    cases s with
    | null =>
      dsimp only
      split
      · exact Or.inr ⟨[], [], rfl, rfl, .nil⟩
      · exact Or.inl ⟨_, Or.inl rfl, rfl, rfl⟩
    | _ => exact Or.inl ⟨_, Or.inr ⟨_, rfl⟩, rfl, by simp only [hkind]⟩
  | _ => exact Or.inl ⟨_, Or.inr ⟨_, rfl⟩, rfl, by simp only [hkind]⟩

theorem requiredNames_mirror (h : es.Alike R es') : requiredNames g' es' = requiredNames g es := by
  have hf := M.field h "required"
  have hv := M.view hf
  have hkind := M.kindName_view hf
  unfold requiredNames
  generalize g.view (es.field "required") = a, g'.view (es'.field "required") = a' at hv hkind
  cases hv with
  | seq hs =>
    obtain ⟨hnames, hlimit⟩ := required_congr (hs.imp fun _ _ => M.scalar)
    simp only [hnames, hlimit]
  | scalar s => cases s <;> simp only [hkind]
  | _ => simp only [hkind]

theorem resolveModel_mirror (name : String) (h : R v v') :
    resolveModel g' name v' = resolveModel g name v := by
  unfold resolveModel
  rcases M.entries?_cases h with ⟨he, he'⟩ | ⟨es, es', he, he', ha⟩
  · simp only [he, he', M.kindName h]
  · simp only [he, he', requiredNames_mirror M ha, M.asText (M.field ha "description")]
    rcases propertiesOf?_mirror M ha with ⟨r, hr, hp, hp'⟩ | ⟨ps, ps', hp, hp', hps⟩
    · rw [hp, hp']
      rcases hr with rfl | ⟨p, rfl⟩ <;> simp only [bind, Except.bind]
    · have same : ∀ required, Report.gather (propertyEntry g' name required) ps' =
          Report.gather (propertyEntry g name required) ps := fun required =>
        Report.gather_eq (hps.imp fun e e' he => propertyEntry_mirror M name required he.1 he.2)
      simp only [hp, hp', bind, Except.bind, same]

theorem modelEntry_mirror {e e' : Scalar × Value} (hk : e'.1 = e.1) (h : R e.2 e'.2) :
    modelEntry g' e' = modelEntry g e := by
  simp only [modelEntry, hk, resolveModel_mirror M _ h]

end Schema

end OpenApiIR
