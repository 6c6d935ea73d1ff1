import Mathlib.Data.Finset.Card
import OpenApiIR.Proofs.Locality
import OpenApiIR.Proofs.Reading
import OpenApiIR.Ref.Chain

/-! Chains of references, told by their hops alone. Each hop follows a text that was not followed
before, and there are only so many texts in a document, so the budget of a chain is never what ends
it. -/

namespace OpenApiIR

namespace Pointer

variable {g : Graph} {ref : String} {v w : Value}

theorem step_part {segment : List Char} (h : step g ref v segment = .ok w) : g.Part v w := by
  unfold step at h
  split at h
  · rename_i es hv
    split at h
    · rename_i w' he
      obtain rfl := Except.ok.inj h
      exact .entry hv (Entries.mem_of_value?_str he)
    · cases h
  · rename_i items hv
    obtain ⟨i, _, _, hi⟩ := itemAt_eq_ok h
    exact .item hv (List.mem_of_getElem? hi)
  · cases h

theorem steps_reach {segments : List (List Char)}
    (h : segments.foldlM (fun v s => step g ref v (unescape s)) v = .ok w) : g.Reaches v w := by
  induction segments generalizing v with
  | nil =>
    obtain rfl := Except.ok.inj h
    exact .refl v
  | cons s rest ih =>
    rw [List.foldlM_cons] at h
    cases hs : step g ref v (unescape s) with
    | error e => simp [hs, bind, Except.bind] at h
    | ok u =>
      simp only [hs, bind, Except.bind] at h
      exact .step (step_part hs) (ih h)

theorem resolve_reaches {root : Value} (h : resolve g root ref = .ok w) : g.Reaches root w := by
  unfold resolve at h
  split at h
  · cases h
  · exact steps_reach h

end Pointer

namespace Scope

/-- What a chain of references comes to, when those in `seen` were followed already. -/
inductive Leads (sc : Scope) : List String → Value → Except RefError Value → Prop where
  | done {seen v} : sc.refOf? v = none → Leads sc seen v (.ok v)
  | refused {seen v ref e} : sc.refOf? v = some ref → sc.start ref = .error e →
      Leads sc seen v (.error e)
  | circular {seen v ref text root} : sc.refOf? v = some ref → sc.start ref = .ok (text, root) →
      text ∈ seen → Leads sc seen v (.error (.circular text))
  | broken {seen v ref text root e} : sc.refOf? v = some ref → sc.start ref = .ok (text, root) →
      text ∉ seen → Pointer.resolve sc.graph root text = .error e → Leads sc seen v (.error e)
  | hop {seen v ref text root next r} : sc.refOf? v = some ref → sc.start ref = .ok (text, root) →
      text ∉ seen → Pointer.resolve sc.graph root text = .ok next →
      Leads sc (text :: seen) next r → Leads sc seen v r

theorem Leads.unique {sc : Scope} {seen : List String} {v : Value} {r r' : Except RefError Value}
    (h : sc.Leads seen v r) (h' : sc.Leads seen v r') : r = r' := by
  induction h with
  | done hn => cases h' <;> simp_all
  | refused hr hs => cases h' <;> simp_all
  | circular hr hs hm => cases h' <;> simp_all
  | broken hr hs hm hp => cases h' <;> simp_all
  | hop hr hs hm hp _ ih =>
    cases h' with
    | hop hr' hs' _ hp' h' =>
      obtain rfl := Option.some.inj (hr.symm.trans hr')
      obtain ⟨rfl, rfl⟩ := Prod.mk.inj (Except.ok.inj (hs.symm.trans hs'))
      obtain rfl := Except.ok.inj (hp.symm.trans hp')
      exact ih h'
    | _ => simp_all

theorem start_ok {sc : Scope} {ref root : Value} {text : String}
    (h : sc.start ref = .ok (text, root)) : ref = .str text ∧ sc.root = some root := by
  unfold start at h
  split at h
  · split at h
    · cases h
    · simp_all
  · cases h

/-! The texts of references in a tree are found in its parts and nowhere else. -/

def TextsIn (texts : List String) (v : Value) : Prop := ∀ t ∈ refTexts v, t ∈ texts

theorem refTextsOfEntries_cons (e : Scalar × Value) (rest : Entries) :
    refTextsOfEntries (e :: rest) =
      (match e.1, e.2 with
        | .str "$ref", .str text => [text]
        | _, _ => []) ++ refTexts e.2 ++ refTextsOfEntries rest := rfl

theorem refTexts_entry {es : Entries} {e : Scalar × Value} {t : String} (he : e ∈ es)
    (ht : t ∈ refTexts e.2) : t ∈ refTextsOfEntries es := by
  induction es with
  | nil => cases he
  | cons e' rest ih =>
    rw [refTextsOfEntries_cons]
    rcases List.mem_cons.mp he with rfl | he
    · exact List.mem_append_left _ (List.mem_append_right _ ht)
    · exact List.mem_append_right _ (ih he)

theorem refTexts_here {es : Entries} {t : String} (he : (Scalar.str "$ref", Value.str t) ∈ es) :
    t ∈ refTextsOfEntries es := by
  induction es with
  | nil => cases he
  | cons e' rest ih =>
    rw [refTextsOfEntries_cons]
    rcases List.mem_cons.mp he with rfl | he
    · exact List.mem_append_left _ (List.mem_append_left _ (List.mem_singleton_self t))
    · exact List.mem_append_right _ (ih he)

theorem refTexts_item {items : List Value} {v : Value} {t : String} (hv : v ∈ items)
    (ht : t ∈ refTexts v) : t ∈ refTextsOfItems items := by
  induction items with
  | nil => cases hv
  | cons v' rest ih =>
    rw [refTextsOfItems]
    rcases List.mem_cons.mp hv with rfl | hv
    · exact List.mem_append_left _ ht
    · exact List.mem_append_right _ (ih hv)

section Budget

variable {sc : Scope} {texts : List String}

theorem TextsIn.view (hcells : ∀ c ∈ sc.graph.cells, TextsIn texts c) {v : Value}
    (h : TextsIn texts v) : TextsIn texts (sc.graph.view v) := by
  cases v with
  | link n =>
    simp only [Graph.view]
    split
    · intro t ht
      cases ht
    · intro t ht
      cases ht
    · rename_i c _ hc
      exact hcells c (Array.mem_of_getElem? hc)
  | _ => exact h

theorem TextsIn.part (hcells : ∀ c ∈ sc.graph.cells, TextsIn texts c) {v w : Value}
    (h : TextsIn texts v) (hp : sc.graph.Part v w) : TextsIn texts w := by
  have hview := h.view hcells
  intro t ht
  cases hp with
  | entry hv he =>
    rw [hv] at hview
    exact hview t (refTexts_entry he ht)
  | item hv hi =>
    rw [hv] at hview
    exact hview t (refTexts_item hi ht)

theorem TextsIn.reached (hcells : ∀ c ∈ sc.graph.cells, TextsIn texts c) {v w : Value}
    (h : TextsIn texts v) (hr : sc.graph.Reaches v w) : TextsIn texts w := by
  induction hr with
  | refl => exact h
  | step hp _ ih => exact ih (h.part hcells hp)

theorem TextsIn.ref (hcells : ∀ c ∈ sc.graph.cells, TextsIn texts c) {v : Value} {t : String}
    (h : TextsIn texts v) (hr : sc.refOf? v = some (.str t)) : t ∈ texts := by
  obtain ⟨es, he, hv⟩ := Option.bind_eq_some_iff.mp hr
  have hview := h.view hcells
  rw [Graph.entries?_eq_some_iff.mp he] at hview
  exact hview t (refTexts_here (Entries.mem_of_value?_str hv))

/-- Following a text leaves one text fewer for the rest of the chain. -/
theorem card_unseen_lt {texts : Finset String} {seen : List String} {text : String}
    (ht : text ∈ texts) (hm : text ∉ seen) :
    (texts \ (text :: seen).toFinset).card < (texts \ seen.toFinset).card := by
  have hleft : text ∈ texts \ seen.toFinset := by
    simp [ht, hm]
  rw [List.toFinset_cons, Finset.sdiff_insert]
  exact Finset.card_erase_lt_of_mem hleft

/-- A budget above the number of texts that are left leads to the end of the chain. -/
theorem chase_leads (hcells : ∀ c ∈ sc.graph.cells, TextsIn texts c)
    (hroot : ∀ root, sc.root = some root → TextsIn texts root) {budget : Nat} {seen : List String}
    {v : Value} (hv : TextsIn texts v) (hb : (texts.toFinset \ seen.toFinset).card < budget) :
    sc.Leads seen v (sc.chase budget seen v) := by
  induction budget generalizing seen v with
  | zero => omega
  | succ budget ih =>
    unfold chase
    cases hr : sc.refOf? v with
    | none => exact .done hr
    | some ref =>
      simp only [bind, Except.bind]
      cases hs : sc.start ref with
      | error e => exact .refused hr hs
      | ok pair =>
        obtain ⟨text, root⟩ := pair
        obtain ⟨rfl, hsc⟩ := start_ok hs
        dsimp only
        by_cases hm : text ∈ seen
        · simp only [hm, if_true]
          exact .circular hr hs hm
        · simp only [hm, if_false]
          cases hp : Pointer.resolve sc.graph root text with
          | error e => exact .broken hr hs hm hp
          | ok next =>
            have hlt := card_unseen_lt (List.mem_toFinset.mpr (hv.ref hcells hr)) hm
            have hnext := (hroot root hsc).reached hcells (Pointer.resolve_reaches hp)
            exact .hop hr hs hm hp (ih hnext (Nat.lt_of_lt_of_le hlt (Nat.le_of_lt_succ hb)))

end Budget

theorem textsIn_self (sc : Scope) (v : Value) : TextsIn (sc.reachableRefs v) v :=
  fun _ ht => List.mem_append_left _ (List.mem_append_left _ ht)

theorem textsIn_cell (sc : Scope) (v : Value) :
    ∀ c ∈ sc.graph.cells, TextsIn (sc.reachableRefs v) c := by
  intro c hc t ht
  have hcell := Array.mem_toList_iff.mpr hc
  exact List.mem_append_right _ (List.mem_flatMap.mpr ⟨c, hcell, ht⟩)

theorem textsIn_root (sc : Scope) (v : Value) :
    ∀ root, sc.root = some root → TextsIn (sc.reachableRefs v) root := by
  intro root h t ht
  refine List.mem_append_left _ (List.mem_append_right _ ?_)
  simpa [h] using ht

theorem follow_leads (sc : Scope) (v : Value) : sc.Leads [] v (sc.follow v) := by
  unfold follow
  cases hr : sc.refOf? v with
  | none => exact .done hr
  | some ref =>
    refine chase_leads (sc.textsIn_cell v) (sc.textsIn_root v) (sc.textsIn_self v) ?_
    have hcard := List.toFinset_card_le (sc.reachableRefs v)
    simp only [List.toFinset_nil, Finset.sdiff_empty]
    omega

theorem follow_eq_iff (sc : Scope) (v : Value) (r : Except RefError Value) :
    sc.follow v = r ↔ sc.Leads [] v r :=
  ⟨fun h => h ▸ sc.follow_leads v, fun h => (sc.follow_leads v).unique h⟩

/-- The first reference breaks the chain where its pointer is refused. -/
theorem follow_broken {sc : Scope} {v root : Value} {text : String} {e : RefError}
    (hr : sc.refOf? v = some (.str text)) (hroot : sc.root = some root)
    (hp : Pointer.resolve sc.graph root text = .error e) : sc.follow v = .error e :=
  (sc.follow_eq_iff v _).mpr (.broken hr (by simp [start, hroot]) List.not_mem_nil hp)

end Scope

end OpenApiIR
