import OpenApiIR.Proofs.Nullability
import OpenApiIR.Proofs.Place
import OpenApiIR.Proofs.Reading

/-! Fragments without links, resolved to the end. Stopping at some depth comes to the same as
cutting the fragment that is visited there out of the one around it: neither the members that unions
choose nor the signs of null above it change. -/

namespace OpenApiIR

namespace Schema

/-- The fragment that the resolution comes to at a depth. -/
def visited (g : Graph) : (depth : Nat) → Value → Option Value
  | 0, v => some v
  | depth + 1, v => (form g v).inside?.bind (visited g depth)

variable {g : Graph} {v u w : Value} {es before after : Entries}

theorem stepType_congr {inner inner' : Value → TypeRef}
    (h : ∀ u, (form g v).inside? = some u → inner' u = inner u) :
    stepType g inner' v = stepType g inner v := by
  rw [stepType_eq, stepType_eq, Form.type_congr h]

theorem mem_of_choice? {cs : List Value} (h : choice? g cs = some u) : u ∈ cs := by
  rcases Option.or_eq_some_iff.mp h with hf | ⟨_, hh⟩
  · exact List.mem_of_find?_eq_some hf
  · exact List.mem_of_head? hh

/-! Fragments without links end. -/

theorem sizeOf_isMap {name : String} (h : Graph.empty.isMap (es.field name) = true) :
    sizeOf (es.field name) < sizeOf (Value.map es) := by
  apply Entries.sizeOf_field
  intro hn
  simp [hn, Graph.isMap, Graph.entries?] at h

theorem Opens.smaller {f : Form} (h : Opens .empty es f) (hu : f.inside? = some u) :
    sizeOf u < sizeOf (Value.map es) := by
  cases h with
  | @member ms w _ hm hc =>
    obtain rfl := Option.some.inj hu
    have hlist : ∀ name, Graph.empty.view (es.field name) = .seq ms →
        sizeOf (Value.seq ms) < sizeOf (Value.map es) := by
      intro name hv
      have hseq := Graph.eq_seq_of_empty (Graph.items?_eq_some_iff.mpr hv)
      rw [← hseq]
      apply Entries.sizeOf_field
      simp [hseq]
    have hitem : sizeOf w < sizeOf (Value.seq ms) :=
      Value.sizeOf_item (List.mem_filter.mp (mem_of_choice? hc)).1
    rcases unionMembers?_eq_some_iff.mp hm with ⟨_, hv⟩ | ⟨_, hv⟩
    · exact hitem.trans (hlist "anyOf" hv)
    · exact hitem.trans (hlist "oneOf" hv)
  | items _ _ hi =>
    obtain rfl := Option.some.inj hu
    exact sizeOf_isMap hi
  | values _ _ hv =>
    obtain rfl := Option.some.inj hu
    exact sizeOf_isMap hv

theorem exists_opens (h : (form g v).inside? = some u) :
    ∃ es, Bare g v es ∧ Opens g es (form g v) := by
  rcases form_cases g v with ho | ⟨t, ht, _⟩
  · exact ho
  · simp [ht, Form.inside?] at h

theorem inside_smaller (h : (form .empty v).inside? = some u) : sizeOf u < sizeOf v := by
  obtain ⟨es, hb, ho⟩ := exists_opens h
  rw [Graph.eq_map_of_empty hb.1]
  exact ho.smaller h

/-- The type of a fragment without links, however deep it is. -/
def fullType (v : Value) : TypeRef :=
  match h : (form .empty v).inside? with
  | some u =>
    have : sizeOf u < sizeOf v := inside_smaller h
    stepType .empty (fun _ => fullType u) v
  | none => stepType .empty (fun _ => .any) v
termination_by sizeOf v

theorem fullType_eq (v : Value) : fullType v = stepType .empty fullType v := by
  rw [fullType]
  split
  · rename_i u hu
    apply stepType_congr
    intro w hw
    rw [Option.some.inj (hu.symm.trans hw)]
  · rename_i hn
    apply stepType_congr
    intro w hw
    simp [hn] at hw

/-! Another fragment in the place of the one inside. -/

def Form.holding (w : Value) : Form → Form
  | .known t => .known t
  | .like _ => .like w
  | .list _ => .list w
  | .map _ => .map w

/-- Entries with another fragment in the place of the one that the form leaves open. -/
def exchanged (es : Entries) (w : Value) : Form → Entries
  | .known _ => es
  | .like u => es.put (.str (unionKey es).name)
    (.seq (((unionMembers? .empty es).getD []).replace u w))
  | .list _ => es.put (.str "items") w
  | .map _ => es.put (.str "additionalProperties") w

def exchange (v w : Value) : Value :=
  match Graph.empty.entries? v with
  | some es => .map (exchanged es w (form .empty v))
  | none => v

/-- The empty map in the place of the fragment that is visited at a depth. -/
def cut : (depth : Nat) → Value → Value
  | 0, _ => .map []
  | depth + 1, v => match (form .empty v).inside? with
    | some u => exchange v (cut depth u)
    | none => v

/-- A map that states no type that the one before it did not state. -/
structure Fits (u w : Value) : Prop where
  isMap : Graph.empty.isMap u = true → Graph.empty.isMap w = true
  typed : ∀ word, typed .empty w word = true → typed .empty u word = true

/-- The place of the fragment inside, where one that fits leaves all else as it is. -/
structure Hole (v u : Value) (p : Place) : Prop where
  fill : p.fill u = v
  exchange : ∀ w, p.fill w = exchange v w
  isMap : ∀ w, Graph.empty.isMap (p.fill w) = true
  typed : ∀ w word, typed .empty (p.fill w) word = typed .empty v word
  form : ∀ w, Fits u w → form .empty (p.fill w) = (form .empty v).holding w
  sign : ∀ w, Fits u w → sign .empty (p.fill w) = sign .empty v

theorem Form.type_holding {f : Form} {inner inner' : Value → TypeRef} (h : f.inside? = some u)
    (hi : inner' w = inner u) : (f.holding w).type inner' = f.type inner := by
  cases f with
  | known t => cases h
  | like v =>
    obtain rfl := Option.some.inj h
    exact hi
  | list v =>
    obtain rfl := Option.some.inj h
    exact congrArg TypeRef.listOf hi
  | map v =>
    obtain rfl := Option.some.inj h
    exact congrArg TypeRef.mapOf hi

theorem Form.inside?_holding {f : Form} (h : f.inside? = some u) :
    (f.holding w).inside? = some w := by
  cases f with
  | known t => cases h
  | like v => rfl
  | list v => rfl
  | map v => rfl

def PartKey.form : PartKey → Value → Form
  | .items => .list
  | .additionalProperties => .map

def PartKey.word : PartKey → String
  | .items => "array"
  | .additionalProperties => "object"

theorem PartKey.opens (key : PartKey) (hu : isUnion es = false)
    (ht : g.view (es.field "type") = .str key.word) (hm : g.isMap (es.field key.name) = true) :
    Opens g es (key.form (es.field key.name)) := by
  cases key with
  | items => exact .items hu ht hm
  | additionalProperties => exact .values hu ht hm

/-- Around the place stands what no fragment inside can change. -/
theorem hole_around {key : String} {p : Place} {x : Value → Value}
    (hkey : key ∉ ["$ref", "type", "nullable"])
    (hfill : ∀ w, p.fill w = .map (around before after key (x w)))
    (hb : Bare .empty v (around before after key (x u)))
    (hexchange : ∀ w, exchange v w = p.fill w)
    (hopens : ∀ w, Fits u w →
      Opens .empty (around before after key (x w)) ((form .empty v).holding w))
    (hsign : ∀ w, Fits u w → unionSign .empty (around before after key (x w)) =
      unionSign .empty (around before after key (x u))) : Hole v u p := by
  simp only [List.mem_cons, List.not_mem_nil, or_false, not_or] at hkey
  obtain ⟨href, htype, hnull⟩ := hkey
  have hbare : ∀ w, Bare .empty (p.fill w) (around before after key (x w)) := by
    intro w
    rw [hfill]
    exact ⟨rfl, (value?_around "$ref" (Ne.symm href)).trans hb.2⟩
  constructor
  case fill => rw [hfill, Graph.eq_map_of_empty hb.1]
  case exchange =>
    intro w
    exact (hexchange w).symm
  case isMap =>
    intro w
    exact Graph.isMap_iff.mpr ⟨_, (hbare w).1⟩
  case typed =>
    intro w word
    rw [typed_eq (hbare w).1, typed_eq hb.1, hasType_around (Ne.symm htype)]
  case form =>
    intro w hw
    rw [form_bare (hbare w), (hopens w hw).bareForm_eq]
  case sign =>
    intro w hw
    rw [sign_bare (hbare w), sign_bare hb]
    exact bareSign_around (Ne.symm htype) (Ne.symm hnull) (hsign w hw)

theorem exists_hole_part (key : PartKey) (hb : Bare .empty v es) (hu : isUnion es = false)
    (ht : Graph.empty.view (es.field "type") = .str key.word)
    (hm : Graph.empty.isMap (es.field key.name) = true) : ∃ p, Hole v (es.field key.name) p := by
  have hform : form .empty v = key.form (es.field key.name) := by
    rw [form_bare hb, (key.opens hu ht hm).bareForm_eq]
  have hexchange : ∀ w, exchange v w = .map (Entries.put es (.str key.name) w) := by
    intro w
    simp only [exchange, hb.1, hform]
    cases key <;> rfl
  have hvalue : es.value? (.str key.name) = some (es.field key.name) := by
    apply Entries.value?_of_field
    intro hn
    simp [hn, Graph.isMap, Graph.entries?] at hm
  generalize es.field key.name = u at *
  obtain ⟨before, after, rfl, hfirst, hput⟩ := exists_around hvalue
  have htype : "type" ≠ key.name := by cases key <;> decide
  refine ⟨.part before key .here after, ?_⟩
  apply hole_around (x := id) (by cases key <;> decide) (fun _ => rfl) hb
  · intro w
    rw [hexchange, hput]
    rfl
  · intro w hw
    have hopens := key.opens (g := .empty) ((isUnion_around key.name).trans hu)
      ((congrArg _ (field_around "type" htype)).trans ht)
      ((congrArg _ (field_around_first hfirst w)).trans (hw.isMap hm))
    rw [field_around_first hfirst w] at hopens
    rw [hform]
    cases key <;> exact hopens
  · intro w _
    rw [unionSign, unionSign, unionMembers?_part]

theorem Fits.typedOtherwise {words : List String} (hw : Fits u w)
    (h : TypedOtherwise .empty words u) : TypedOtherwise .empty words w := by
  obtain ⟨es, he, hes⟩ := h
  obtain ⟨fs, hf⟩ := Graph.isMap_iff.mp (hw.isMap (Graph.isMap_iff.mpr ⟨es, he⟩))
  refine ⟨fs, hf, fun word hm ht => ?_⟩
  have htyped := hw.typed word ((typed_eq hf word).trans ((hasType_iff fs word).mpr ht))
  rw [typed_eq he, hasType_iff] at htyped
  exact hes word hm htyped

/-- What takes the place of the primary member is the primary member then. -/
theorem Primary.exists_split {ms : List Value} (h : Primary .empty ms u) :
    ∃ left right, ms = left ++ u :: right ∧ u ∉ left ∧
      ∀ w, Fits u w → Primary .empty (left ++ w :: right) w := by
  cases h with
  | specific hf =>
    obtain ⟨left, right, rfl, hu, hleft⟩ := hf
    refine ⟨left, right, rfl, fun hm => hleft u hm hu, ?_⟩
    intro w hw
    exact .specific ⟨left, right, rfl, hw.typedOtherwise hu, hleft⟩
  | fallback hnone hf =>
    obtain ⟨left, right, rfl, hu, hleft⟩ := hf
    refine ⟨left, right, rfl, fun hm => hleft u hm hu, ?_⟩
    intro w hw
    have hfirst := hw.typedOtherwise hu
    -- the new member may be no object any more
    by_cases hs : TypedOtherwise .empty ["null", "object"] w
    · exact .specific ⟨left, right, rfl, hs, fun m hm => hnone m (List.mem_append_left _ hm)⟩
    · apply Primary.fallback
      · intro m hm
        rcases List.mem_append.mp hm with hm | hm
        · exact hnone m (List.mem_append_left _ hm)
        · rcases List.mem_cons.mp hm with rfl | hm
          · exact hs
          · exact hnone m (List.mem_append_right _ (List.mem_cons_of_mem _ hm))
      · exact ⟨left, right, rfl, hfirst, hleft⟩

theorem unionMembers?_first {key : UnionKey} {ms : List Value}
    (hfirst : before.value? (.str key.name) = none)
    (hkey : unionKey (around before after key.name (.seq ms)) = key) (ms' : List Value) :
    unionMembers? g (around before after key.name (.seq ms')) = some ms' := by
  rw [unionMembers?_eq, unionKey_around key ms, hkey, field_around_first hfirst]
  rfl

theorem not_null_of_fits (hw : Fits u w) (hu : typed .empty u "null" = false) :
    typed .empty w "null" = false := by
  rw [← Bool.not_eq_true] at hu ⊢
  exact fun hn => hu (hw.typed "null" hn)

theorem exists_hole_member {ms : List Value} (hb : Bare .empty v es) (hu : isUnion es = true)
    (hm : unionMembers? .empty es = some ms) (hc : choice? .empty (candidates .empty ms) = some u) :
    ∃ p, Hole v u p := by
  have hform : form .empty v = .like u := by
    rw [form_bare hb, (Opens.member hu hm hc).bareForm_eq]
  have hexchange : ∀ w, exchange v w =
      .map (Entries.put es (.str (unionKey es).name) (.seq (ms.replace u w))) := by
    intro w
    simp only [exchange, hb.1, hform, exchanged, hm, Option.getD_some]
  have hnull : typed .empty u "null" = false := by
    have hcandidate := (List.mem_filter.mp (mem_of_choice? hc)).2
    simpa using (Bool.and_eq_true_iff.mp hcandidate).2
  have hseq : es.field (unionKey es).name = .seq ms :=
    Graph.eq_seq_of_empty ((unionMembers?_eq .empty es).symm.trans hm)
  have hvalue : es.value? (.str (unionKey es).name) = some (.seq ms) := by
    rw [Entries.value?_of_field (by simp [hseq]), hseq]
  obtain ⟨key, hkey⟩ : ∃ key, unionKey es = key := ⟨_, rfl⟩
  rw [hkey] at hvalue hexchange
  obtain ⟨before, after, rfl, hfirst, hput⟩ := exists_around hvalue
  obtain ⟨left, right, rfl, hleft, hprimary⟩ := (choice?_eq_some_iff.mp hc).exists_split
  have hmembers := unionMembers?_first (g := .empty) hfirst hkey
  refine ⟨.member before key left .here right after, ?_⟩
  apply hole_around (x := fun w => .seq (left ++ w :: right)) (by cases key <;> decide)
    (fun _ => rfl) hb
  · intro w
    rw [hexchange, hput, List.replace_append_right hleft, List.replace_cons_self]
    rfl
  · intro w hw
    rw [hform]
    exact .member ((isUnion_around key.name).trans hu) (hmembers _)
      (choice?_eq_some_iff.mpr (hprimary w hw))
  · intro w hw
    rw [unionSign, unionSign, hmembers, hmembers]
    simp only [Option.any_some, List.any_append, List.any_cons, hnull, not_null_of_fits hw hnull]

theorem exists_hole (h : (form .empty v).inside? = some u) : ∃ p, Hole v u p := by
  obtain ⟨es, hb, ho⟩ := exists_opens h
  revert h
  generalize form .empty v = f at *
  intro h
  cases ho with
  | member hu hm hc =>
    obtain rfl := Option.some.inj h
    exact exists_hole_member hb hu hm hc
  | items hu ht hi =>
    obtain rfl := Option.some.inj h
    exact exists_hole_part .items hb hu ht hi
  | values hu ht hv =>
    obtain rfl := Option.some.inj h
    exact exists_hole_part .additionalProperties hb hu ht hv

theorem fits_cut (depth : Nat) (u : Value) : Fits u (cut depth u) := by
  cases depth with
  | zero =>
    constructor
    · intro _
      rfl
    · intro word h
      cases h
  | succ depth =>
    rw [cut]
    cases hi : (form .empty u).inside? with
    | none => exact ⟨id, fun _ => id⟩
    | some w =>
      obtain ⟨p, hp⟩ := exists_hole hi
      dsimp only
      rw [← hp.exchange]
      constructor
      · intro _
        exact hp.isMap _
      · intro word h
        rwa [hp.typed] at h

/-- Stopping at a depth and cutting there give one type. -/
theorem typeWithin_cut (depth : Nat) (v : Value) :
    typeWithin .empty depth v = fullType (cut depth v) := by
  induction depth generalizing v with
  | zero =>
    rw [fullType_eq]
    rfl
  | succ depth ih =>
    rw [typeWithin, fullType_eq, stepType_eq, stepType_eq, cut]
    cases hi : (form .empty v).inside? with
    | none => rw [Form.type_congr fun u hu => by simp [hi] at hu]
    | some u =>
      obtain ⟨p, hp⟩ := exists_hole hi
      have hfits := fits_cut depth u
      dsimp only
      rw [← hp.exchange, hp.form _ hfits, hp.sign _ hfits, Form.type_holding hi (ih u).symm]

theorem cut_of_none {depth : Nat} (h : visited .empty depth v = none) : cut depth v = v := by
  induction depth generalizing v with
  | zero => cases h
  | succ depth ih =>
    rw [cut]
    cases hi : (form .empty v).inside? with
    | none => rfl
    | some u =>
      rw [visited, hi] at h
      obtain ⟨p, hp⟩ := exists_hole hi
      dsimp only
      rw [ih h, ← hp.exchange, hp.fill]

/-- The fragment that is visited and the empty map are visited in one place. -/
theorem cut_of_some {depth : Nat} (h : visited .empty depth v = some u) :
    visited .empty depth (cut depth v) = some (.map []) ∧
      ∃ p : Place, p.fill u = v ∧ p.fill (.map []) = cut depth v := by
  induction depth generalizing v with
  | zero => exact ⟨rfl, .here, Option.some.inj h.symm, rfl⟩
  | succ depth ih =>
    rw [visited] at h
    obtain ⟨w, hi, hw⟩ := Option.bind_eq_some_iff.mp h
    obtain ⟨p, hp⟩ := exists_hole hi
    obtain ⟨hvisit, q, hq, hcut⟩ := ih hw
    have hexchange : cut (depth + 1) v = p.fill (cut depth w) := by
      rw [cut, hi, hp.exchange]
    rw [hexchange]
    constructor
    · rw [visited, hp.form _ (fits_cut depth w), Form.inside?_holding hi]
      exact hvisit
    · refine ⟨p.within q, ?_, ?_⟩
      · rw [Place.fill_within, hq, hp.fill]
      · rw [Place.fill_within, hcut]

end Schema

end OpenApiIR
