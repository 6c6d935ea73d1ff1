import OpenApiIR.Proofs.Mirror

/-! A fragment is read through the graph of its document, but only as far as its own links lead.
Graphs that agree on what a fragment reaches give it the same type, and the same models. -/

namespace OpenApiIR

namespace Graph

/-- What a value holds: the values of a map, and the items of a list. -/
inductive Part (g : Graph) (v : Value) : Value → Prop where
  | entry {es : Entries} {e : Scalar × Value} : g.view v = .map es → e ∈ es → Part g v e.2
  | item {items : List Value} {w : Value} : g.view v = .seq items → w ∈ items → Part g v w

inductive Reaches (g : Graph) : Value → Value → Prop where
  | refl (v : Value) : Reaches g v v
  | step {u v w : Value} : Part g u v → Reaches g v w → Reaches g u w

/-- Another graph shows the same of everything that a value reaches. -/
def AgreeFrom (g g' : Graph) (v : Value) : Prop := ∀ w, g.Reaches v w → g'.view w = g.view w

variable {g g' : Graph} {v w : Value}

theorem Reaches.of_scalar {s : Scalar} (h : g.Reaches (.scalar s) w) : w = .scalar s := by
  cases h with
  | refl => rfl
  | step hp _ => cases hp <;> simp_all

namespace AgreeFrom

theorem view (h : AgreeFrom g g' v) : g'.view v = g.view v := h v (.refl v)

theorem part (h : AgreeFrom g g' v) (hp : g.Part v w) : AgreeFrom g g' w :=
  fun u hu => h u (.step hp hu)

theorem null : AgreeFrom g g' .null := by
  intro w hw
  rw [hw.of_scalar]
  rfl

theorem mirrors (g g' : Graph) : g.Mirrors g' fun v v' => v' = v ∧ AgreeFrom g g' v where
  null := ⟨rfl, null⟩
  scalar h := by rw [h.1]
  view := by
    rintro v v' ⟨hv', h⟩
    rw [hv', h.view]
    cases hv : g.view v with
    | scalar s => exact .scalar s
    | seq xs => exact .seq (List.forall₂_same.mpr fun w hw => ⟨rfl, h.part (.item hv hw)⟩)
    | pair a b => exact .pair a b a b
    | map es => exact .map (List.forall₂_same.mpr fun e he => ⟨rfl, rfl, h.part (.entry hv he)⟩)
    | set ms => exact .set ms ms
    | link n => exact absurd hv (view_ne_link g v n)

end AgreeFrom

end Graph

/-- Only the name and what the fragment reaches decide on the contribution of an entry. -/
theorem Schema.modelEntry_agree {g g' : Graph} {e : Scalar × Value} (h : g.AgreeFrom g' e.2) :
    modelEntry g' e = modelEntry g e :=
  modelEntry_mirror (Graph.AgreeFrom.mirrors g g') rfl ⟨rfl, h⟩

end OpenApiIR
