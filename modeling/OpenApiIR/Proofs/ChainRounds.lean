import Mathlib.Data.Set.Card
import OpenApiIR.Failure
import OpenApiIR.Proofs.Chain

/-! How many rounds a chain of references takes. A pointer leads from the root to a part of the
root, however far up that part is, so every text that is followed occurs in the value or in the
root; and no round follows the text of an earlier one. -/

namespace OpenApiIR

namespace Scope

/-- `Leads`, with the number of rounds: every reference that is met takes one, also the last. -/
inductive Rounds (sc : Scope) : Nat → List String → Value → Except RefError Value → Prop where
  | done {seen v} : sc.refOf? v = none → Rounds sc 0 seen v (.ok v)
  | refused {seen v ref e} : sc.refOf? v = some ref → sc.start ref = .error e →
      Rounds sc 1 seen v (.error e)
  | circular {seen v ref text root} : sc.refOf? v = some ref → sc.start ref = .ok (text, root) →
      text ∈ seen → Rounds sc 1 seen v (.error (.circular text))
  | broken {seen v ref text root e} : sc.refOf? v = some ref → sc.start ref = .ok (text, root) →
      text ∉ seen → Pointer.resolve sc.graph root text = .error e → Rounds sc 1 seen v (.error e)
  | hop {n seen v ref text root next r} : sc.refOf? v = some ref →
      sc.start ref = .ok (text, root) → text ∉ seen →
      Pointer.resolve sc.graph root text = .ok next →
      Rounds sc n (text :: seen) next r → Rounds sc (n + 1) seen v r

def Within (sc : Scope) (v w : Value) : Prop :=
  ∃ u, (u = v ∨ sc.root = some u) ∧ sc.graph.Reaches u w

/-- The texts under a `$ref` in the value and in the root. -/
def refsIn (sc : Scope) (v : Value) : Set String :=
  {text | ∃ w, sc.Within v w ∧ sc.refOf? w = some (.str text)}

variable {sc : Scope} {v w : Value} {n : Nat} {seen : List String} {r : Except RefError Value}

theorem Within.self (sc : Scope) (v : Value) : sc.Within v v := ⟨v, .inl rfl, .refl v⟩

theorem Within.resolve {root : Value} {text : String} (hroot : sc.root = some root)
    (hp : Pointer.resolve sc.graph root text = .ok w) : sc.Within v w :=
  ⟨root, .inr hroot, Pointer.resolve_reaches hp⟩

theorem refsIn_subset (sc : Scope) (v : Value) :
    sc.refsIn v ⊆ ((sc.reachableRefs v).toFinset : Set String) := by
  rintro text ⟨w, ⟨u, hu, hw⟩, hr⟩
  have hcells := sc.textsIn_cell v
  have hstart : TextsIn (sc.reachableRefs v) u := by
    rcases hu with rfl | hroot
    · exact sc.textsIn_self u
    · exact sc.textsIn_root v u hroot
  rw [Finset.mem_coe, List.mem_toFinset]
  exact (hstart.reached hcells hw).ref hcells hr

theorem refsIn_finite (sc : Scope) (v : Value) : (sc.refsIn v).Finite :=
  (Finset.finite_toSet _).subset (sc.refsIn_subset v)

theorem Leads.rounds (h : sc.Leads seen v r) : ∃ n, sc.Rounds n seen v r := by
  induction h with
  | done hr => exact ⟨0, .done hr⟩
  | refused hr hs => exact ⟨1, .refused hr hs⟩
  | circular hr hs hm => exact ⟨1, .circular hr hs hm⟩
  | broken hr hs hm hp => exact ⟨1, .broken hr hs hm hp⟩
  | hop hr hs hm hp _ ih =>
    obtain ⟨n, hn⟩ := ih
    exact ⟨n + 1, .hop hr hs hm hp hn⟩

theorem Rounds.leads (h : sc.Rounds n seen v r) : sc.Leads seen v r := by
  induction h with
  | done hr => exact .done hr
  | refused hr hs => exact .refused hr hs
  | circular hr hs hm => exact .circular hr hs hm
  | broken hr hs hm hp => exact .broken hr hs hm hp
  | hop hr hs hm hp _ ih => exact .hop hr hs hm hp ih

theorem chase_hop {ref root next : Value} {text : String} (hr : sc.refOf? v = some ref)
    (hs : sc.start ref = .ok (text, root)) (hm : text ∉ seen)
    (hp : Pointer.resolve sc.graph root text = .ok next) (budget : Nat) :
    sc.chase (budget + 1) seen v = sc.chase budget (text :: seen) next := by
  simp [Scope.chase, hr, hs, hm, hp, bind, Except.bind]

theorem Rounds.chase {budget : Nat} (h : sc.Rounds n seen v r) (hb : n ≤ budget) :
    sc.chase budget seen v = r := by
  induction h generalizing budget with
  | done hr => cases budget <;> simp [Scope.chase, hr]
  | refused hr hs =>
    obtain ⟨budget, rfl⟩ := Nat.exists_eq_add_of_le' hb
    simp [Scope.chase, hr, hs, bind, Except.bind]
  | circular hr hs hm =>
    obtain ⟨budget, rfl⟩ := Nat.exists_eq_add_of_le' hb
    simp [Scope.chase, hr, hs, hm, bind, Except.bind, throw, throwThe, MonadExceptOf.throw]
  | broken hr hs hm hp =>
    obtain ⟨budget, rfl⟩ := Nat.exists_eq_add_of_le' hb
    simp [Scope.chase, hr, hs, hm, hp, bind, Except.bind]
  | hop hr hs hm hp _ ih =>
    obtain ⟨budget, rfl⟩ := Nat.exists_eq_add_of_le' (Nat.le_of_add_left_le hb)
    rw [chase_hop hr hs hm hp]
    exact ih (Nat.le_of_succ_le_succ hb)

theorem Rounds.chase_cut {budget : Nat} (h : sc.Rounds n seen v r) (hb : budget < n) :
    ∃ w ref, sc.chase budget seen v = .ok w ∧ sc.refOf? w = some ref := by
  induction h generalizing budget with
  | done _ => exact absurd hb (Nat.not_lt_zero budget)
  | refused hr _ | circular hr _ _ | broken hr _ _ _ =>
    obtain rfl := Nat.lt_one_iff.mp hb
    exact ⟨_, _, rfl, hr⟩
  | hop hr hs hm hp _ ih =>
    cases budget with
    | zero => exact ⟨_, _, rfl, hr⟩
    | succ budget =>
      rw [chase_hop hr hs hm hp]
      exact ih (Nat.lt_of_succ_lt_succ hb)

/-- Inside the value and the root, the texts that are left bound the rounds that are left. -/
theorem Rounds.le_unseen {texts : Finset String} (htexts : ↑texts = sc.refsIn v)
    (h : sc.Rounds n seen w r) (hw : sc.Within v w) : n ≤ (texts \ seen.toFinset).card + 1 := by
  induction h with
  | done _ => exact Nat.zero_le _
  | refused _ _ => exact Nat.le_add_left 1 _
  | circular _ _ _ => exact Nat.le_add_left 1 _
  | broken _ _ _ _ => exact Nat.le_add_left 1 _
  | @hop n seen w ref text root next r hr hs hm hp _ ih =>
    obtain ⟨rfl, hroot⟩ := start_ok hs
    have htext : text ∈ texts := by
      rw [← Finset.mem_coe, htexts]
      exact ⟨w, hw, hr⟩
    have hrest := ih (.resolve hroot hp)
    have hleft := card_unseen_lt htext hm
    omega

/-- A chain ends, whatever circles the references form, after no more rounds than there are texts
under a `$ref` in the value and the root, and one for the reference that closes a circle. It is cut
off by a smaller budget and by no other. -/
theorem rounds_bounded (sc : Scope) (v : Value) :
    (sc.refsIn v).Finite ∧ (∃ n, sc.Rounds n [] v (sc.follow v)) ∧
    ∀ n r, sc.Rounds n [] v r → r = sc.follow v ∧ n ≤ (sc.refsIn v).ncard + 1 ∧
      (∀ budget, n ≤ budget → sc.chase budget [] v = r) ∧
      ∀ budget, budget < n → ∃ w ref, sc.chase budget [] v = .ok w ∧ sc.refOf? w = some ref := by
  have hfinite := sc.refsIn_finite v
  refine ⟨hfinite, (sc.follow_leads v).rounds, ?_⟩
  intro n r h
  refine ⟨((sc.follow_eq_iff v r).mpr h.leads).symm, ?_, fun _ => h.chase, fun _ => h.chase_cut⟩
  have hbound := h.le_unseen hfinite.coe_toFinset (.self sc v)
  rwa [List.toFinset_nil, Finset.sdiff_empty, ← Set.ncard_eq_toFinset_card _ hfinite] at hbound

/-- A tail that leads into a circle, one of whose references stands in a list. -/
def tailed : Scope where
  root := some (.map [
    (.str "tail", .map [(.str "$ref", .str "#/left")]),
    (.str "left", .map [(.str "$ref", .str "#/right/0")]),
    (.str "right", .seq [.map [(.str "$ref", .str "#/left")]])])
  graph := .empty

def toTail : Value := .map [(.str "$ref", .str "#/tail")]

/-- Three texts, each followed once, and a fourth round in which `#/left` comes back. -/
theorem tailed_rounds :
    tailed.Rounds 4 [] toTail (.error (.circular "#/left")) ∧
    tailed.follow toTail = .error (.circular "#/left") ∧
    4 ≤ (tailed.refsIn toTail).ncard + 1 := by
  have hrounds : tailed.Rounds 4 [] toTail (.error (.circular "#/left")) := by
    refine .hop rfl rfl (by decide) rfl ?_
    refine .hop rfl rfl (by decide) rfl ?_
    refine .hop rfl rfl (by decide) rfl ?_
    exact .circular rfl rfl (by decide)
  obtain ⟨_, _, hall⟩ := rounds_bounded tailed toTail
  obtain ⟨hr, hn, _⟩ := hall 4 _ hrounds
  exact ⟨hrounds, hr.symm, hn⟩

end Scope

end OpenApiIR
