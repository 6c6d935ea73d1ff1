import OpenApiIR.Proofs.Truncation
import OpenApiIR.Proofs.Unrolling

/-! The depth limit. On a fragment without links it is a cut, and one that contains itself is
resolved like what it unrolls to. In both cases the resolution is done after as many fragments as
the limit allows. -/

namespace OpenApiIR

namespace Schema

/-- The resolution, together with the fragments that it takes up, in order. -/
def traced (g : Graph) : (levels : Nat) → Value → TypeRef × List Value
  | 0, v => (.any, [v])
  | levels + 1, v => match (form g v).inside? with
    | some u =>
      let (t, us) := traced g levels u
      (stepType g (fun _ => t) v, v :: us)
    | none => (stepType g (fun _ => .any) v, [v])

theorem traced_type (g : Graph) (levels : Nat) (v : Value) :
    (traced g levels v).1 = typeWithin g levels v := by
  induction levels generalizing v with
  | zero => rfl
  | succ levels ih =>
    rw [traced, typeWithin]
    cases hi : (form g v).inside? with
    | none =>
      apply stepType_congr
      intro u hu
      simp [hi] at hu
    | some u =>
      apply stepType_congr
      intro w hw
      rw [ih u, Option.some.inj (hi.symm.trans hw)]

theorem traced_length (g : Graph) (levels : Nat) (v : Value) :
    (traced g levels v).2.length ≤ levels + 1 := by
  induction levels generalizing v with
  | zero => exact Nat.le_refl 1
  | succ levels ih =>
    rw [traced]
    cases (form g v).inside? with
    | none => exact Nat.succ_le_succ (Nat.zero_le _)
    | some u => exact Nat.succ_le_succ (ih u)

theorem traced_visited (g : Graph) {levels depth : Nat} (h : depth ≤ levels) (v : Value) :
    (traced g levels v).2[depth]? = visited g depth v := by
  induction levels generalizing depth v with
  | zero =>
    obtain rfl := Nat.le_zero.mp h
    rfl
  | succ levels ih =>
    cases depth with
    | zero =>
      rw [traced]
      cases (form g v).inside? <;> rfl
    | succ depth =>
      rw [traced, visited]
      cases (form g v).inside? with
      | none => rfl
      | some u => exact ih (Nat.le_of_succ_le_succ h) u

/-- On a fragment without links the limit is a cut: its type is that of the unlimited resolution,
after the empty map has taken the place of the fragment visited just below the limit, if one is. In
any graph the resolution takes up the fragments visited down to there, and gives the type of what
they unroll to. -/
theorem depth_limit_cuts :
    (∀ v, fullType v = stepType .empty fullType v) ∧
    (∀ v, typeOf .empty v = fullType (cut (depthLimit + 1) v)) ∧
    (∀ v u, visited .empty (depthLimit + 1) v = some u →
      visited .empty (depthLimit + 1) (cut (depthLimit + 1) v) = some (.map []) ∧
        ∃ p : Place, p.fill u = v ∧ p.fill (.map []) = cut (depthLimit + 1) v) ∧
    (∀ v, visited .empty (depthLimit + 1) v = none → typeOf .empty v = fullType v) ∧
    (∀ g v, (traced g (depthLimit + 1) v).1 = typeOf g v ∧
      (traced g (depthLimit + 1) v).2.length ≤ depthLimit + 2 ∧
      ∀ depth ≤ depthLimit + 1, (traced g (depthLimit + 1) v).2[depth]? = visited g depth v) ∧
    ∀ g : Graph, g.NamesCollections → ∀ v levels, 2 * (depthLimit + 1) + 1 ≤ levels →
      typeOf g v = fullType (cut (depthLimit + 1) (unroll g levels v)) := by
  refine ⟨fullType_eq, typeWithin_cut _, ?_, ?_, ?_, ?_⟩
  · intro v u hu
    exact cut_of_some hu
  · intro v hv
    rw [typeOf, typeWithin_cut, cut_of_none hv]
  · intro g v
    refine ⟨traced_type g _ v, traced_length g _ v, ?_⟩
    intro depth h
    exact traced_visited g h v
  · intro g hg v levels h
    rw [← typeWithin_cut, typeWithin_unroll hg h, typeOf]

def selfList : Graph := .ofCells #[.map [(.str "type", .str "array"), (.str "items", .link 0)]]

def deepList : Value := unroll selfList 131 (.link 0)

/-- It takes all the fragments that the limit allows. A shallow list is left as it is. -/
theorem self_list_cut : selfList.NamesCollections ∧
    typeOf selfList (.link 0) = fullType (cut 65 deepList) ∧
    (∃ (u : Value) (p : Place), p.fill u = deepList ∧ p.fill (.map []) = cut 65 deepList) ∧
    (traced selfList 65 (.link 0)).2.length = 66 ∧
    visited .empty 65 tagList = none ∧ typeOf .empty tagList = fullType tagList := by
  have hg : selfList.NamesCollections := by
    intro n s
    cases n <;> simp [selfList, Graph.ofCells]
  have hdeep : (visited .empty 65 deepList).isSome = true := by decide +kernel
  have hshallow : visited .empty 65 tagList = none := by decide +kernel
  obtain ⟨_, _, hplace, hfinite, _, hlinks⟩ := depth_limit_cuts
  obtain ⟨u, hu⟩ := Option.isSome_iff_exists.mp hdeep
  obtain ⟨_, p, hp, hcut⟩ := hplace deepList u hu
  refine ⟨hg, hlinks selfList hg (.link 0) 131 (by decide), ⟨u, p, hp, hcut⟩, ?_, hshallow,
    hfinite tagList hshallow⟩
  decide +kernel

end Schema

end OpenApiIR
