import OpenApiIR.Proofs.Mirror
import OpenApiIR.Proofs.Reading

/-! The keys that are known to the resolution of types. Fragments that agree on these, and whose
fragments inside do so as well, have one type: neither the order of the keys nor anything under
another key counts. -/

namespace OpenApiIR

section Options

variable {α β : Type} {P Q : α → β → Prop} {o : Option α} {o' : Option β}

theorem rel_imp (h : ∀ a b, P a b → Q a b) (hr : Option.Rel P o o') : Option.Rel Q o o' := by
  cases hr with
  | none => exact .none
  | some hp => exact .some (h _ _ hp)

theorem isSome_of_rel (hr : Option.Rel P o o') : o'.isSome = o.isSome := by
  cases hr <;> rfl

end Options

/-- The same scalar, or collections of one kind with parts in a relation. The order of a map is not
seen. -/
inductive Value.Matches (E : Value → Value → Prop) : Value → Value → Prop where
  | scalar (s : Scalar) : Matches E (.scalar s) (.scalar s)
  | seq {xs ys : List Value} : List.Forall₂ E xs ys → Matches E (.seq xs) (.seq ys)
  | pair (v w v' w' : Value) : Matches E (.pair v w) (.pair v' w')
  | map {es es' : Entries} : (∀ k, Option.Rel E (es.value? k) (es'.value? k)) →
      Matches E (.map es) (.map es')
  | set (ms ms' : List Scalar) : Matches E (.set ms) (.set ms')

theorem Value.Matches.imp {E F : Value → Value → Prop} (h : ∀ v v', E v v' → F v v') {v v' : Value}
    (hm : Value.Matches E v v') : Value.Matches F v v' := by
  cases hm with
  | scalar s => exact .scalar s
  | seq hs => exact .seq (hs.imp h)
  | pair a b c d => exact .pair a b c d
  | map he => exact .map fun k => rel_imp h (he k)
  | set ms ms' => exact .set ms ms'

namespace Graph

structure Equates (g g' : Graph) (E : Value → Value → Prop) : Prop where
  scalar : ∀ {v v'}, E v v' → v'.scalar? = v.scalar?
  view : ∀ {v v'}, E v v' → Value.Matches E (g.view v) (g'.view v')

/-- One value in two graphs, however its collections are linked and its maps are ordered. -/
def SameValue (g g' : Graph) (v v' : Value) : Prop := ∃ E, g.Equates g' E ∧ E v v'

variable {g g' : Graph} {E : Value → Value → Prop} {v v' : Value}

theorem sameValue_scalar (g g' : Graph) (s : Scalar) : g.SameValue g' (.scalar s) (.scalar s) := by
  refine ⟨fun v v' => v = .scalar s ∧ v' = .scalar s, ⟨?_, ?_⟩, rfl, rfl⟩
  · rintro _ _ ⟨rfl, rfl⟩
    rfl
  · rintro _ _ ⟨rfl, rfl⟩
    exact .scalar s

theorem sameValue_equates (g g' : Graph) : g.Equates g' (g.SameValue g') where
  scalar := by
    rintro v v' ⟨E, hE, h⟩
    exact hE.scalar h
  view := by
    rintro v v' ⟨E, hE, h⟩
    exact (hE.view h).imp fun w w' hw => ⟨E, hE, hw⟩

theorem Equates.items (hE : g.Equates g' E) (h : E v v') :
    Option.Rel (List.Forall₂ E) (g.items? v) (g'.items? v') := by
  have hv := hE.view h
  unfold items?
  generalize g.view v = a, g'.view v' = a' at hv
  cases hv with
  | seq hs => exact .some hs
  | _ => exact .none

theorem Equates.entries (hE : g.Equates g' E) (h : E v v') :
    Option.Rel (fun es es' : Entries => ∀ k, Option.Rel E (es.value? k) (es'.value? k))
      (g.entries? v) (g'.entries? v') := by
  have hv := hE.view h
  unfold entries?
  generalize g.view v = a, g'.view v' = a' at hv
  cases hv with
  | map he => exact .some he
  | _ => exact .none

end Graph

namespace Entries

variable {es es' : Entries} {name : String} {v w : Value}

theorem Distinct.value_unique (hd : es.Distinct) (hv : (Scalar.str name, v) ∈ es)
    (hw : (Scalar.str name, w) ∈ es) : v = w := by
  induction es with
  | nil => cases hv
  | cons e rest ih =>
    obtain ⟨k, x⟩ := e
    obtain ⟨hfirst, hrest⟩ := List.pairwise_cons.mp hd
    have hother : ∀ u, (Scalar.str name, u) ∈ rest → k ≠ .str name := by
      rintro u hu rfl
      have hk := hfirst (.str name) (List.mem_map_of_mem hu)
      simp [Scalar.sameKey_str] at hk
    rcases List.mem_cons.mp hv with hv | hv
    · rcases List.mem_cons.mp hw with hw | hw
      · rw [(Prod.mk.inj hv).2, (Prod.mk.inj hw).2]
      · exact absurd (Prod.mk.inj hv).1.symm (hother w hw)
    · rcases List.mem_cons.mp hw with hw | hw
      · exact absurd (Prod.mk.inj hw).1.symm (hother v hv)
      · exact ih hrest hv hw

theorem value?_eq_some_iff
    (hu : ∀ v w, (Scalar.str name, v) ∈ es → (Scalar.str name, w) ∈ es → v = w) :
    es.value? (.str name) = some v ↔ (Scalar.str name, v) ∈ es := by
  constructor
  · exact mem_of_value?_str
  · intro hv
    have hfound : (es.value? (.str name)).isSome = true := by
      rw [value?, Option.isSome_map, List.find?_isSome]
      exact ⟨_, hv, by simp [Scalar.sameKey_str]⟩
    obtain ⟨w, hw⟩ := Option.isSome_iff_exists.mp hfound
    rw [hw, hu v w hv (mem_of_value?_str hw)]

theorem value?_perm (hd : es.Distinct) (hp : es.Perm es') (name : String) :
    es'.value? (.str name) = es.value? (.str name) := by
  have hu : ∀ v w, (Scalar.str name, v) ∈ es → (Scalar.str name, w) ∈ es → v = w :=
    fun _ _ hv hw => hd.value_unique hv hw
  ext v
  rw [value?_eq_some_iff hu, value?_eq_some_iff (by simpa only [hp.mem_iff] using hu), hp.mem_iff]

theorem Distinct.filter (hd : es.Distinct) (p : Scalar × Value → Bool) :
    Distinct (es.filter p) :=
  List.Pairwise.sublist (List.filter_sublist.map _) hd

end Entries

namespace Schema

def plainKeys : List String := ["$ref", "type", "nullable", "format"]

def partKeys : List String := ["items", "additionalProperties"]

def unionKeys : List String := ["anyOf", "oneOf"]

def knownKeys : List String := plainKeys ++ partKeys ++ unionKeys

def isKnown : Scalar → Bool
  | .str name => knownKeys.contains name
  | _ => false

/-- What stands under a known key in two fragments: one value, or related fragments. -/
inductive KeyAgrees (g g' : Graph) (R : Value → Value → Prop) (name : String) (w w' : Value) :
    Prop where
  | same : g.SameValue g' w w' → KeyAgrees g g' R name w w'
  | part : name ∈ partKeys → R w w' → KeyAgrees g g' R name w w'
  | members {ms ms' : List Value} : name ∈ unionKeys → g.view w = .seq ms → g'.view w' = .seq ms' →
      List.Forall₂ R ms ms' → KeyAgrees g g' R name w w'

/-- Each known key is in both maps or in neither, and what stands under it agrees. -/
def KnownAgree (g g' : Graph) (R : Value → Value → Prop) (es es' : Entries) : Prop :=
  ∀ name ∈ knownKeys,
    Option.Rel (KeyAgrees g g' R name) (es.value? (.str name)) (es'.value? (.str name))

/-- Related fragments are maps that agree on the known keys, or no maps at all. -/
def Agreement (g g' : Graph) (R : Value → Value → Prop) : Prop :=
  ∀ v v', R v v' → Option.Rel (KnownAgree g g' R) (g.entries? v) (g'.entries? v')

/-- The entries under known keys are the same but for their order. -/
def Rearranged (g g' : Graph) (R : Value → Value → Prop) (es es' : Entries) : Prop :=
  ∃ fs, (es.filter fun e => isKnown e.1).Perm fs ∧ ∀ name ∈ knownKeys,
    Entries.AlikeAt (KeyAgrees g g' R name) (.str name) fs (es'.filter fun e => isKnown e.1)

variable {g g' : Graph} {R : Value → Value → Prop} {es es' : Entries} {v v' w w' : Value}
  {name word : String}

theorem Rearranged.knownAgree (hd : es.Distinct) (h : Rearranged g g' R es es') :
    KnownAgree g g' R es es' := by
  intro name hname
  obtain ⟨fs, hp, halike⟩ := h
  have hknown : isKnown (.str name) = true := List.contains_iff_mem.mpr hname
  rw [← Entries.value?_filter hknown es, ← Entries.value?_filter hknown es',
    ← Entries.value?_perm (hd.filter _) hp]
  rcases (halike name hname).value?_cases with ⟨hn, hn'⟩ | ⟨w, w', hw, hw', ha⟩
  · rw [hn, hn']
    exact .none
  · rw [hw, hw']
    exact .some ha

theorem KeyAgrees.imp {S : Value → Value → Prop} (h : ∀ v v', R v v' → S v v')
    (ha : KeyAgrees g g' R name w w') : KeyAgrees g g' S name w w' := by
  cases ha with
  | same hs => exact .same hs
  | part hn hr => exact .part hn (h _ _ hr)
  | members hn hv hv' hm => exact .members hn hv hv' (hm.imp h)

theorem Agreement.withSame (h : Agreement g g' R) :
    Agreement g g' fun v v' => R v v' ∨ g.SameValue g' v v' := by
  rintro v v' (hr | hs)
  · exact rel_imp (fun es es' ha name hname =>
      rel_imp (fun w w' hk => hk.imp fun _ _ => Or.inl) (ha name hname)) (h v v' hr)
  · exact rel_imp (fun es es' he name _ => rel_imp (fun _ _ => .same) (he (.str name)))
      ((g.sameValue_equates g').entries hs)

/-! What is read of two fragments under each key. -/

theorem not_union_of_part (h : name ∈ partKeys) : name ∉ unionKeys := by
  have hpart : ∀ name ∈ partKeys, name ∉ unionKeys := by decide
  exact hpart name h

theorem KeyAgrees.value (h : KeyAgrees g g' R name w w') (hn : name ∈ plainKeys) :
    g.SameValue g' w w' := by
  have hplain : ∀ name ∈ plainKeys, name ∉ partKeys ∧ name ∉ unionKeys := by decide
  obtain ⟨hpart, hunion⟩ := hplain name hn
  cases h with
  | same hs => exact hs
  | part hp _ => exact absurd hp hpart
  | members hu _ _ _ => exact absurd hu hunion

theorem KeyAgrees.related (hs : ∀ w w', g.SameValue g' w w' → R w w')
    (h : KeyAgrees g g' R name w w') (hn : name ∈ partKeys) : R w w' := by
  cases h with
  | same hw => exact hs _ _ hw
  | part _ hr => exact hr
  | members hu _ _ _ => exact absurd hu (not_union_of_part hn)

theorem not_null_of_seq {ms : List Value} (h : g.view v = .seq ms) : v.isNull = false := by
  cases v with
  | scalar s => cases h
  | _ => rfl

theorem KeyAgrees.lists (hs : ∀ w w', g.SameValue g' w w' → R w w')
    (h : KeyAgrees g g' R name w w') (hn : name ∈ unionKeys) :
    w'.isNull = w.isNull ∧ Option.Rel (List.Forall₂ R) (g.items? w) (g'.items? w') := by
  have M := g.sameValue_equates g'
  cases h with
  | same hw => exact ⟨Value.isNull_congr (M.scalar hw), rel_imp (fun _ _ hm => hm.imp hs)
    (M.items hw)⟩
  | part hp _ => exact absurd hn (not_union_of_part hp)
  | members _ hv hv' hm =>
    refine ⟨by rw [not_null_of_seq hv, not_null_of_seq hv'], ?_⟩
    rw [Graph.items?_eq_some_iff.mpr hv, Graph.items?_eq_some_iff.mpr hv']
    exact .some hm

namespace KnownAgree

variable (h : KnownAgree g g' R es es')

include h

theorem field (name : String) (hn : name ∈ knownKeys) :
    KeyAgrees g g' R name (es.field name) (es'.field name) := by
  have hvalue := h name hn
  unfold Entries.field
  generalize es.value? (.str name) = value, es'.value? (.str name) = value' at hvalue ⊢
  cases hvalue with
  | none => exact .same (g.sameValue_scalar g' .null)
  | some ha => exact ha

theorem value (name : String) (hn : name ∈ plainKeys) :
    g.SameValue g' (es.field name) (es'.field name) :=
  (h.field name (List.mem_append_left _ (List.mem_append_left _ hn))).value hn

theorem scalar (name : String) (hn : name ∈ plainKeys) :
    (es'.field name).scalar? = (es.field name).scalar? :=
  (g.sameValue_equates g').scalar (h.value name hn)

theorem isUnion : isUnion es' = isUnion es := by
  have declared : ∀ name ∈ unionKeys, es'.declares name = es.declares name := fun name hn =>
    isSome_of_rel (h name (List.mem_append_right _ hn))
  rw [Schema.isUnion, Schema.isUnion, declared "anyOf" (by decide), declared "oneOf" (by decide)]

theorem hasType (word : String) : hasType es' word = hasType es word := by
  rw [Schema.hasType, Schema.hasType, Value.str?_congr (h.scalar "type" (by decide))]

theorem keyword : keyword g' es' = keyword g es := by
  have M := g.sameValue_equates g'
  have hv := M.view (h.value "type" (by decide))
  unfold Schema.keyword
  generalize g.view (es.field "type") = a, g'.view (es'.field "type") = a' at hv
  cases hv with
  | seq hs => simp only [firstWord?, texts_congr (hs.imp fun _ _ => M.scalar)]
  | _ => rfl

theorem listSign : listSign g' es' = listSign g es := by
  have M := g.sameValue_equates g'
  have hitems := M.items (h.value "type" (by decide))
  unfold Schema.listSign
  generalize g.items? (es.field "type") = words, g'.items? (es'.field "type") = words' at hitems
  cases hitems with
  | none => rfl
  | some hw => rw [Option.any_some, Option.any_some, texts_congr (hw.imp fun _ _ => M.scalar)]

theorem ref : (es'.value? (.str "$ref")).map refType = (es.value? (.str "$ref")).map refType := by
  have hvalue := h "$ref" (by decide)
  generalize es.value? (.str "$ref") = value, es'.value? (.str "$ref") = value' at hvalue
  cases hvalue with
  | none => rfl
  | some ha =>
    have hsame := (g.sameValue_equates g').scalar (ha.value (by decide))
    rw [Option.map_some, Option.map_some, refType_congr hsame]

theorem unionMembers? (hs : ∀ w w', g.SameValue g' w w' → R w w') :
    Option.Rel (List.Forall₂ R) (unionMembers? g es) (unionMembers? g' es') := by
  have hany := (h.field "anyOf" (by decide)).lists hs (by decide)
  have hone := (h.field "oneOf" (by decide)).lists hs (by decide)
  unfold Schema.unionMembers?
  dsimp only
  rw [hany.1]
  split
  · exact hone.2
  · exact hany.2

end KnownAgree

section Agreed

variable (hs : ∀ w w', g.SameValue g' w w' → R w w') (ha : Agreement g g' R)

include ha

theorem Agreement.isMap (h : R w w') : g'.isMap w' = g.isMap w := isSome_of_rel (ha w w' h)

theorem Agreement.typed (h : R w w') (word : String) : typed g' w' word = typed g w word := by
  have hmaps := ha w w' h
  unfold Schema.typed
  generalize g.entries? w = entries, g'.entries? w' = entries' at hmaps ⊢
  cases hmaps with
  | none => rfl
  | some hk => exact hk.hasType word

theorem Agreement.candidates {ms ms' : List Value} (h : List.Forall₂ R ms ms') :
    List.Forall₂ (CandidateAlike g g' R) (Schema.candidates g ms) (Schema.candidates g' ms') := by
  have hfilter : List.Forall₂ R (Schema.candidates g ms) (Schema.candidates g' ms') :=
    List.rel_filter (fun m m' hm => by simp only [ha.isMap hm, ha.typed hm]) h
  exact hfilter.imp fun m m' hm => ⟨ha.typed hm "object", hm⟩

include hs

theorem Agreement.readAlike (h : KnownAgree g g' R es es') : ReadAlike g g' R es es' := by
  have hpart : ∀ name ∈ partKeys, PartAlike g g' R (es.field name) (es'.field name) := by
    intro name hn
    have hr := (h.field name (List.mem_append_left _ (List.mem_append_right _ hn))).related hs hn
    exact ⟨ha.isMap hr, fun _ => hr⟩
  refine ⟨h.isUnion, rel_imp (fun _ _ => ha.candidates) (h.unionMembers? hs), h.keyword, ?_,
    hpart "items" (by decide), hpart "additionalProperties" (by decide)⟩
  simp only [isTimeFormat, Value.str?_congr (h.scalar "format" (by decide))]

theorem Agreement.bareSign (h : KnownAgree g g' R es es') : bareSign g' es' = bareSign g es := by
  have hunion : unionSign g' es' = unionSign g es := by
    have hmembers := h.unionMembers? hs
    unfold unionSign
    generalize Schema.unionMembers? g es = members, Schema.unionMembers? g' es' =
      members' at hmembers
    cases hmembers with
    | none => rfl
    | some hm =>
      simp only [Option.any_some]
      induction hm with
      | nil => rfl
      | cons hr _ ih => simp only [List.any_cons, ha.typed hr, ih]
  rw [Schema.bareSign, Schema.bareSign, h.isUnion, hunion, h.listSign,
    Value.isTrue_congr (h.scalar "nullable" (by decide))]

/-- Both forms leave related fragments open, and both or neither hold a sign of null. -/
theorem Agreement.typeWithin (levels : Nat) (h : R v v') :
    typeWithin g' levels v' = typeWithin g levels v := by
  induction levels generalizing v v' with
  | zero => rfl
  | succ levels ih =>
    have hmaps : Option.Rel (MapAlike g g' R) (g.entries? v) (g'.entries? v') :=
      rel_imp (fun es es' hk => ⟨hk.ref, ha.readAlike hs hk⟩) (ha v v' h)
    have hsign : sign g' v' = sign g v := by
      apply sign_alike hmaps
      intro es es' he he'
      have hk := ha v v' h
      rw [he, he'] at hk
      cases hk with
      | some hk => exact ha.bareSign hs hk
    rw [Schema.typeWithin, Schema.typeWithin, stepType_eq, stepType_eq, hsign,
      (form_alike hmaps).type_eq fun u u' hu => ih hu]

end Agreed

/-- Agreement on the known keys, at the top and in the fragments inside, is enough for one type. The
order of the entries and those under other keys are no part of it. -/
theorem known_keys_decide (g g' : Graph) (R : Value → Value → Prop) :
    (∀ es es' : Entries, es.Distinct → Rearranged g g' R es es' → KnownAgree g g' R es es') ∧
    (Agreement g g' R → ∀ v v', R v v' → typeOf g' v' = typeOf g v) := by
  constructor
  · intro es es' hd h
    exact h.knownAgree hd
  · intro ha v v' h
    exact ha.withSame.typeWithin (fun _ _ => Or.inr) (depthLimit + 1) (Or.inl h)

def nested : Entries := [(.str "items", .link 0), (.str "title", .str "Nested"),
  (.str "type", .str "array")]

def untitled : Entries := [(.str "type", .str "array"), (.str "items", .link 0)]

def Links (v v' : Value) : Prop := v = .link 0 ∧ v' = .link 0

/-- Lists of themselves, written in two ways. -/
theorem nested_eq_untitled : nested.Distinct ∧
    Rearranged (.ofCells #[.map nested]) (.ofCells #[.map untitled]) Links nested untitled ∧
    typeOf (.ofCells #[.map untitled]) (.link 0) = typeOf (.ofCells #[.map nested]) (.link 0) := by
  have hd : nested.Distinct := by
    unfold Entries.Distinct
    decide
  have hr : Rearranged (.ofCells #[.map nested]) (.ofCells #[.map untitled]) Links nested
    untitled := by
    refine ⟨untitled, List.Perm.swap _ _ _, ?_⟩
    intro name _
    refine .cons ⟨rfl, fun _ => .same (Graph.sameValue_scalar _ _ _)⟩ (.cons ⟨rfl, ?_⟩ .nil)
    intro hk
    rw [Scalar.sameKey_str, beq_iff_eq] at hk
    exact .part (by rw [← hk]; decide) ⟨rfl, rfl⟩
  obtain ⟨hknown, hsame⟩ :=
    known_keys_decide (.ofCells #[.map nested]) (.ofCells #[.map untitled]) Links
  have ha : Agreement (.ofCells #[.map nested]) (.ofCells #[.map untitled]) Links := by
    rintro _ _ ⟨rfl, rfl⟩
    exact .some (hknown nested untitled hd hr)
  exact ⟨hd, hr, hsame ha (.link 0) (.link 0) ⟨rfl, rfl⟩⟩

end Schema

end OpenApiIR
