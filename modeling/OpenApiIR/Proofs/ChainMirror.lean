import OpenApiIR.Proofs.Chain
import OpenApiIR.Proofs.OperationMirror

/-! Chains of references in two documents side by side. Related values hold related references, so
two chains go on in step as long as their pointers lead from the two roots to related values. -/

namespace OpenApiIR

theorem forall₂_getElem? {α β : Type} {R : α → β → Prop} {xs : List α} {ys : List β}
    (h : List.Forall₂ R xs ys) (i : Nat) :
    (xs[i]? = none ∧ ys[i]? = none) ∨ ∃ x y, xs[i]? = some x ∧ ys[i]? = some y ∧ R x y := by
  induction h generalizing i with
  | nil => exact Or.inl ⟨rfl, rfl⟩
  | @cons x y rest rest' hr _ ih =>
    cases i with
    | zero => exact Or.inr ⟨x, y, rfl, rfl, hr⟩
    | succ i => exact ih i

open Scope (SameEnd)

variable {sc sc' : Scope} {R : Value → Value → Prop} {v v' : Value}

namespace Pointer

variable {g g' : Graph} (M : g.Mirrors g' R)

include M

omit M in
theorem itemAt_mirror {xs ys : List Value} (h : List.Forall₂ R xs ys) (ref : String)
    (segment : List Char) : SameEnd R (itemAt xs ref segment) (itemAt ys ref segment) := by
  unfold itemAt
  cases index? segment with
  | none => exact .error _
  | some i =>
    cases Limit.ofDigits? segment.length with
    | some l => exact .error _
    | none =>
      rcases forall₂_getElem? h i with ⟨hn, hn'⟩ | ⟨w, w', hw, hw', hr⟩
      · simp only [hn, hn']
        exact .error _
      · simp only [hw, hw']
        exact .ok hr

theorem step_mirror (h : R v v') (ref : String) (segment : List Char) :
    SameEnd R (step g ref v segment) (step g' ref v' segment) := by
  have hv := M.view h
  have hkind := M.kindName h
  unfold step
  generalize g.view v = a, g'.view v' = a' at hv
  cases hv with
  | map hes =>
    dsimp only
    rcases hes.value?_cases (.str (String.ofList segment)) with ⟨hn, hn'⟩ | ⟨w, w', hw, hw', hr⟩
    · rw [hn, hn']
      exact .error _
    · rw [hw, hw']
      exact .ok hr
  | seq hs => exact itemAt_mirror hs ref segment
  | _ => exact hkind ▸ .error _

theorem steps_mirror (ref : String) (segments : List (List Char)) (h : R v v') :
    SameEnd R (segments.foldlM (fun v s => step g ref v (unescape s)) v)
      (segments.foldlM (fun v s => step g' ref v (unescape s)) v') := by
  induction segments generalizing v v' with
  | nil => exact .ok h
  | cons s rest ih =>
    have hs := step_mirror M h ref (unescape s)
    rw [List.foldlM_cons, List.foldlM_cons]
    generalize step g ref v (unescape s) = r, step g' ref v' (unescape s) = r' at hs
    cases hs with
    | error e => exact .error e
    | ok hw => exact ih hw

theorem resolve_mirror {es es' : Entries} {root root' : Value} {ref : String}
    (hroot : g.entries? root = some es) (hroot' : g'.entries? root' = some es')
    (hfirst : ∀ s rest, segments? ref = some (s :: rest) →
      es.AlikeAt R (.str (String.ofList (unescape s))) es') :
    SameEnd R (resolve g root ref) (resolve g' root' ref) := by
  unfold resolve
  cases hs : segments? ref with
  | none => exact .error _
  | some segments =>
    cases segments with
    | nil => exact absurd rfl (segments?_ne_nil hs)
    | cons s rest =>
      dsimp only
      rw [List.foldlM_cons, List.foldlM_cons]
      simp only [step, Graph.entries?_eq_some_iff.mp hroot, Graph.entries?_eq_some_iff.mp hroot']
      rcases (hfirst s rest hs).value?_cases with ⟨hn, hn'⟩ | ⟨w, w', hw, hw', hr⟩
      · rw [hn, hn']
        exact .error _
      · rw [hw, hw']
        exact steps_mirror M ref rest hr

end Pointer

namespace Scope

theorem refOf?_none (M : sc.graph.Mirrors sc'.graph R) (h : R v v') (hn : sc.refOf? v = none) :
    sc'.refOf? v' = none := by
  unfold refOf? at *
  rcases M.entries?_cases h with ⟨_, he'⟩ | ⟨es, es', he, he', ha⟩
  · rw [he']
    rfl
  · rw [he] at hn
    rw [he']
    rcases ha.value?_cases (.str "$ref") with ⟨_, hn'⟩ | ⟨w, w', hw, _, _⟩
    · exact hn'
    · exact absurd (hw.symm.trans hn) (by simp)

theorem refOf?_some (M : sc.graph.Mirrors sc'.graph R) (h : R v v') {ref : Value}
    (hr : sc.refOf? v = some ref) : ∃ ref', sc'.refOf? v' = some ref' ∧ R ref ref' := by
  unfold refOf? at *
  rcases M.entries?_cases h with ⟨he, _⟩ | ⟨es, es', he, he', ha⟩
  · rw [he] at hr
    cases hr
  · rw [he] at hr
    rw [he']
    rcases ha.value?_cases (.str "$ref") with ⟨hn, _⟩ | ⟨w, w', hw, hw', hrel⟩
    · exact absurd (hn.symm.trans hr) (by simp)
    · obtain rfl := Option.some.inj (hr.symm.trans hw)
      exact ⟨w', hw', hrel⟩

theorem start_mirror {root root' : Value} (M : sc.graph.Mirrors sc'.graph R)
    (hroot : sc.root = some root) (hroot' : sc'.root = some root') {ref ref' : Value}
    (h : R ref ref') : sc'.start ref' = (sc.start ref).map fun p => (p.1, root') := by
  have hscalar := M.scalar h
  have hkind := M.kindName h
  have refused : ∀ (sc₀ : Scope) (w : Value), w.str? = none →
      sc₀.start w = .error (.notText (sc₀.graph.kindName w)) := by
    intro sc₀ w hw
    cases w with
    | scalar s => cases s <;> first | rfl | cases hw
    | _ => rfl
  cases ht : ref.str? with
  | none =>
    have ht' : ref'.str? = none := (M.str? h).trans ht
    rw [refused sc ref ht, refused sc' ref' ht', hkind]
    rfl
  | some text =>
    have spelled : ∀ w : Value, w.str? = some text → w = .str text := by
      intro w hw
      unfold Value.str? at hw
      split at hw <;> simp_all
    rw [spelled ref ht, spelled ref' ((M.str? h).trans ht)]
    simp only [start, hroot, hroot']
    rfl

theorem Leads.mirror {root root' : Value} (M : sc.graph.Mirrors sc'.graph R)
    (hroot : sc.root = some root) (hroot' : sc'.root = some root')
    (hresolve : ∀ {v v' text}, R v v' → sc.refOf? v = some (.str text) →
      SameEnd R (Pointer.resolve sc.graph root text) (Pointer.resolve sc'.graph root' text))
    {seen : List String} {r : Except RefError Value} (h : sc.Leads seen v r) (hv : R v v') :
    ∃ r', sc'.Leads seen v' r' ∧ SameEnd R r r' := by
  -- The first hop of a chain with its reference in either scope.
  have first : ∀ {v v' ref text root₀}, R v v' → sc.refOf? v = some ref →
      sc.start ref = .ok (text, root₀) →
      (∃ ref', sc'.refOf? v' = some ref' ∧ sc'.start ref' = .ok (text, root')) ∧
        SameEnd R (Pointer.resolve sc.graph root₀ text) (Pointer.resolve sc'.graph root' text) := by
    intro v v' ref text root₀ hv hr hs
    obtain ⟨rfl, hroot₀⟩ := start_ok hs
    obtain rfl := Option.some.inj (hroot.symm.trans hroot₀)
    obtain ⟨ref', hr', hrel⟩ := refOf?_some M hv hr
    have hs' := start_mirror M hroot hroot' hrel
    rw [hs] at hs'
    exact ⟨⟨ref', hr', hs'⟩, hresolve hv hr⟩
  induction h generalizing v' with
  | done hn => exact ⟨_, .done (refOf?_none M hv hn), .ok hv⟩
  | refused hr hs =>
    obtain ⟨ref', hr', hrel⟩ := refOf?_some M hv hr
    have hs' := start_mirror M hroot hroot' hrel
    rw [hs] at hs'
    exact ⟨_, .refused hr' hs', .error _⟩
  | circular hr hs hm =>
    obtain ⟨⟨ref', hr', hs'⟩, _⟩ := first hv hr hs
    exact ⟨_, .circular hr' hs' hm, .error _⟩
  | broken hr hs hm hp =>
    obtain ⟨⟨ref', hr', hs'⟩, hend⟩ := first hv hr hs
    rw [hp] at hend
    generalize hp' : Pointer.resolve sc'.graph root' _ = p' at hend
    cases hend with
    | error => exact ⟨_, .broken hr' hs' hm hp', .error _⟩
  | hop hr hs hm hp _ ih =>
    obtain ⟨⟨ref', hr', hs'⟩, hend⟩ := first hv hr hs
    rw [hp] at hend
    generalize hp' : Pointer.resolve sc'.graph root' _ = p' at hend
    cases hend with
    | ok hw =>
      obtain ⟨r', hl, hsame⟩ := ih hw
      exact ⟨r', .hop hr' hs' hm hp' hl, hsame⟩

theorem follow_mirror {root root' : Value} (M : sc.graph.Mirrors sc'.graph R)
    (hroot : sc.root = some root) (hroot' : sc'.root = some root')
    (hresolve : ∀ {v v' text}, R v v' → sc.refOf? v = some (.str text) →
      SameEnd R (Pointer.resolve sc.graph root text) (Pointer.resolve sc'.graph root' text))
    (hv : R v v') : SameEnd R (sc.follow v) (sc'.follow v') := by
  obtain ⟨r', hl, hsame⟩ := (sc.follow_leads v).mirror M hroot hroot' hresolve hv
  rw [(sc'.follow_eq_iff v' r').mpr hl]
  exact hsame

end Scope

end OpenApiIR
