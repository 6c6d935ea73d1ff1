import Mathlib.Data.Finset.Card
import OpenApiIR.Document.Literal
import OpenApiIR.Proofs.Mirror

/-! The numbers of links mean nothing. A value of one document and a value of another are the same
when they are equal up to a one-to-one renumbering of the links that are met from them; such values
mirror each other, and they are shown by the same text. -/

namespace OpenApiIR

namespace Value

mutual

def renumber (cell : Nat → Nat) : Value → Value
  | .scalar s => .scalar s
  | .seq items => .seq (renumberItems cell items)
  | .pair v w => .pair (renumber cell v) (renumber cell w)
  | .map entries => .map (renumberEntries cell entries)
  | .set members => .set members
  | .link n => .link (cell n)

def renumberItems (cell : Nat → Nat) : List Value → List Value
  | [] => []
  | v :: rest => renumber cell v :: renumberItems cell rest

def renumberEntries (cell : Nat → Nat) : List (Scalar × Value) → List (Scalar × Value)
  | [] => []
  | (k, v) :: rest => (k, renumber cell v) :: renumberEntries cell rest

end

mutual

def links : Value → List Nat
  | .scalar _ | .set _ => []
  | .seq items => linksOfItems items
  | .pair v w => links v ++ links w
  | .map entries => linksOfEntries entries
  | .link n => [n]

def linksOfItems : List Value → List Nat
  | [] => []
  | v :: rest => links v ++ linksOfItems rest

def linksOfEntries : List (Scalar × Value) → List Nat
  | [] => []
  | (_, v) :: rest => links v ++ linksOfEntries rest

end

theorem mem_linksOfItems {items : List Value} {v : Value} {n : Nat} (hv : v ∈ items)
    (hn : n ∈ v.links) : n ∈ linksOfItems items := by
  induction items with
  | nil => cases hv
  | cons v' rest ih =>
    rw [linksOfItems]
    rcases List.mem_cons.mp hv with rfl | hv
    · exact List.mem_append_left _ hn
    · exact List.mem_append_right _ (ih hv)

theorem mem_linksOfEntries {es : Entries} {e : Scalar × Value} {n : Nat} (he : e ∈ es)
    (hn : n ∈ e.2.links) : n ∈ linksOfEntries es := by
  induction es with
  | nil => cases he
  | cons e' rest ih =>
    rw [linksOfEntries]
    rcases List.mem_cons.mp he with rfl | he
    · exact List.mem_append_left _ hn
    · exact List.mem_append_right _ (ih he)

theorem forall₂_renumberItems {cell : Nat → Nat} {R : Value → Value → Prop} {items : List Value}
    (h : ∀ v ∈ items, R v (v.renumber cell)) : List.Forall₂ R items (renumberItems cell items) := by
  induction items with
  | nil => exact .nil
  | cons v rest ih =>
    have hrest := ih fun w hw => h w (List.mem_cons_of_mem v hw)
    exact .cons (h v List.mem_cons_self) hrest

theorem alike_renumberEntries {cell : Nat → Nat} {R : Value → Value → Prop} {es : Entries}
    (h : ∀ e ∈ es, R e.2 (e.2.renumber cell)) : es.Alike R (renumberEntries cell es) := by
  induction es with
  | nil => exact .nil
  | cons e rest ih =>
    have hrest := ih fun e' he' => h e' (List.mem_cons_of_mem e he')
    exact .cons ⟨rfl, h e List.mem_cons_self⟩ hrest

mutual

theorem renumber_id : ∀ v : Value, v.renumber id = v
  | .scalar _ | .set _ | .link _ => rfl
  | .seq items => by rw [renumber, renumberItems_id items]
  | .pair v w => by rw [renumber, renumber_id v, renumber_id w]
  | .map entries => by rw [renumber, renumberEntries_id entries]

theorem renumberItems_id : ∀ items : List Value, renumberItems id items = items
  | [] => rfl
  | v :: rest => by rw [renumberItems, renumber_id v, renumberItems_id rest]

theorem renumberEntries_id : ∀ es : List (Scalar × Value), renumberEntries id es = es
  | [] => rfl
  | (k, v) :: rest => by rw [renumberEntries, renumber_id v, renumberEntries_id rest]

end

mutual

/-- A text depends on the texts of the links, and not on their numbers. -/
theorem literalWith_renumber {cell : Nat → Nat} {text text' : Nat → String} : ∀ v : Value,
    (∀ n ∈ v.links, text' (cell n) = text n) →
      (v.renumber cell).literalWith text' = v.literalWith text
  | .scalar _, _ => rfl
  | .set _, _ => rfl
  | .link n, h => h n (List.mem_singleton_self n)
  | .seq items, h => by rw [renumber, literalWith, literalWith, literalItems_renumber items h]
  | .pair v w, h => by
    have hv := literalWith_renumber v fun n hn => h n (List.mem_append_left _ hn)
    have hw := literalWith_renumber w fun n hn => h n (List.mem_append_right _ hn)
    rw [renumber, literalWith, literalWith, hv, hw]
  | .map entries, h => by rw [renumber, literalWith, literalWith, literalEntries_renumber entries h]

theorem literalItems_renumber {cell : Nat → Nat} {text text' : Nat → String} :
    ∀ items : List Value, (∀ n ∈ linksOfItems items, text' (cell n) = text n) →
      literalItems text' (renumberItems cell items) = literalItems text items
  | [], _ => rfl
  | v :: rest, h => by
    have hv := literalWith_renumber v fun n hn => h n (List.mem_append_left _ hn)
    have hrest := literalItems_renumber rest fun n hn => h n (List.mem_append_right _ hn)
    rw [renumberItems, literalItems, literalItems, hv, hrest]

theorem literalEntries_renumber {cell : Nat → Nat} {text text' : Nat → String} :
    ∀ es : List (Scalar × Value), (∀ n ∈ linksOfEntries es, text' (cell n) = text n) →
      literalEntries text' (renumberEntries cell es) = literalEntries text es
  | [], _ => rfl
  | (k, v) :: rest, h => by
    have hv := literalWith_renumber v fun n hn => h n (List.mem_append_left _ hn)
    have hrest := literalEntries_renumber rest fun n hn => h n (List.mem_append_right _ hn)
    rw [renumberEntries, literalEntries, literalEntries, hv, hrest]

end

mutual

theorem limitWith_renumber {cell : Nat → Nat} {limit limit' : Nat → Nat → Option Limit} :
    ∀ (v : Value) (room : Nat), (∀ n ∈ v.links, ∀ r, limit' r (cell n) = limit r n) →
      (v.renumber cell).limitWith limit' room = v.limitWith limit room
  | .scalar _, _, _ => rfl
  | .set _, _, _ => rfl
  | .link n, room, h => h n (List.mem_singleton_self n) room
  | .seq items, room, h => by
    rw [renumber, limitWith, limitWith, limitItems_renumber items (room - 1) h]
  | .pair v w, room, h => by
    have hv := limitWith_renumber v (room - 1) fun n hn => h n (List.mem_append_left _ hn)
    have hw := limitWith_renumber w (room - 1) fun n hn => h n (List.mem_append_right _ hn)
    rw [renumber, limitWith, limitWith, hv, hw]
  | .map entries, room, h => by
    rw [renumber, limitWith, limitWith, limitEntries_renumber entries (room - 1) h]

theorem limitItems_renumber {cell : Nat → Nat} {limit limit' : Nat → Nat → Option Limit} :
    ∀ (items : List Value) (room : Nat),
      (∀ n ∈ linksOfItems items, ∀ r, limit' r (cell n) = limit r n) →
        limitItems limit' room (renumberItems cell items) = limitItems limit room items
  | [], _, _ => rfl
  | v :: rest, room, h => by
    have hv := limitWith_renumber v room fun n hn => h n (List.mem_append_left _ hn)
    have hrest := limitItems_renumber rest room fun n hn => h n (List.mem_append_right _ hn)
    rw [renumberItems, limitItems, limitItems, hv, hrest]

theorem limitEntries_renumber {cell : Nat → Nat} {limit limit' : Nat → Nat → Option Limit} :
    ∀ (es : List (Scalar × Value)) (room : Nat),
      (∀ n ∈ linksOfEntries es, ∀ r, limit' r (cell n) = limit r n) →
        limitEntries limit' room (renumberEntries cell es) = limitEntries limit room es
  | [], _, _ => rfl
  | (k, v) :: rest, room, h => by
    have hv := limitWith_renumber v room fun n hn => h n (List.mem_append_left _ hn)
    have hrest := limitEntries_renumber rest room fun n hn => h n (List.mem_append_right _ hn)
    rw [renumberEntries, limitEntries, limitEntries, hv, hrest]

end

end Value

namespace Graph

/-- The links that are met from a value: its own, and those in the collections that links name. -/
inductive Meets (g : Graph) (v : Value) : Nat → Prop where
  | here {n : Nat} : n ∈ v.links → Meets g v n
  | inside {m n : Nat} : Meets g v m → n ∈ (g.view (.link m)).links → Meets g v n

structure SameBy (g g' : Graph) (cell : Nat → Nat) (v v' : Value) : Prop where
  value : v' = v.renumber cell
  content : ∀ n, g.Meets v n → g'.view (.link (cell n)) = (g.view (.link n)).renumber cell
  injective : ∀ m n, g.Meets v m → g.Meets v n → cell m = cell n → m = n

/-- One value, seen in two documents. -/
def Same (g g' : Graph) (v v' : Value) : Prop := ∃ cell, SameBy g g' cell v v'

variable {g g' : Graph} {cell : Nat → Nat} {v v' w : Value}

theorem Meets.of_links (h : ∀ n ∈ w.links, g.Meets v n) {n : Nat} (hn : g.Meets w n) :
    g.Meets v n := by
  induction hn with
  | here hn => exact h _ hn
  | inside _ hn ih => exact .inside ih hn

theorem same_refl (g : Graph) (v : Value) : g.Same g v v := by
  refine ⟨id, (Value.renumber_id v).symm, fun n _ => ?_, fun m n _ _ h => h⟩
  rw [Value.renumber_id]
  rfl

theorem SameBy.of_links (h : SameBy g g' cell v v') (hw : ∀ n ∈ w.links, g.Meets v n) :
    g.Same g' w (w.renumber cell) :=
  ⟨cell, rfl, fun n hn => h.content n (hn.of_links hw),
    fun m n hm hn => h.injective m n (hm.of_links hw) (hn.of_links hw)⟩

theorem SameBy.view (h : SameBy g g' cell v v') :
    SameBy g g' cell (g.view v) (g'.view v') := by
  have hlinks : ∀ n ∈ (g.view v).links, g.Meets v n := by
    intro n hn
    cases v with
    | link m => exact .inside (.here (List.mem_singleton_self m)) hn
    | _ => exact .here hn
  refine ⟨?_, fun n hn => h.content n (hn.of_links hlinks),
    fun m n hm hn => h.injective m n (hm.of_links hlinks) (hn.of_links hlinks)⟩
  rw [h.value]
  cases v with
  | link m => exact h.content m (.here (List.mem_singleton_self m))
  | _ => rfl

theorem same_scalar {s : Scalar} : g.Same g' (.scalar s) (.scalar s) := by
  have none : ∀ n, ¬ g.Meets (.scalar s) n := by
    intro n hn
    induction hn with
    | here hn => cases hn
    | inside _ _ ih => exact ih
  exact ⟨id, rfl, fun n hn => absurd hn (none n), fun m _ hm => absurd hm (none m)⟩

theorem same_mirrors (g g' : Graph) : g.Mirrors g' (g.Same g') where
  null := same_scalar
  scalar := by
    rintro v v' ⟨cell, h⟩
    rw [h.value]
    cases v <;> rfl
  view := by
    rintro v v' ⟨cell, h⟩
    have hview := h.view
    rw [hview.value]
    cases hv : g.view v with
    | scalar s => exact .scalar s
    | seq items =>
      rw [hv] at hview
      exact .seq (Value.forall₂_renumberItems fun w hw =>
        hview.of_links fun n hn => .here (Value.mem_linksOfItems hw hn))
    | pair a b => exact .pair ..
    | map es =>
      rw [hv] at hview
      exact .map (Value.alike_renumberEntries fun e he =>
        hview.of_links fun n hn => .here (Value.mem_linksOfEntries he hn))
    | set ms => exact .set ..
    | link n => exact absurd hv (view_ne_link g v n)

/-- How many cells can still be opened inside the given ones. -/
def unopened (g : Graph) (inside : List Nat) : Nat :=
  (Finset.range g.cells.size \ inside.toFinset).card

theorem view_of_size_le {n : Nat} (h : g.cells.size ≤ n) : g.view (.link n) = .null := by
  simp only [view, Array.getElem?_eq_none h]

theorem unopened_cons_lt {inside : List Nat} {n : Nat} (hn : n < g.cells.size) (hm : n ∉ inside) :
    g.unopened (n :: inside) < g.unopened inside := by
  have hmem : n ∈ Finset.range g.cells.size \ inside.toFinset := by simp [hn, hm]
  have hlt := Finset.card_erase_lt_of_mem hmem
  simpa only [unopened, List.toFinset_cons, Finset.sdiff_insert] using hlt

/-- Budgets that cover the cells still closed give one text. -/
theorem linkLiteral_budget {budget budget' : Nat} {inside : List Nat} (n : Nat)
    (h : g.unopened inside < budget) (h' : g.unopened inside < budget') :
    g.linkLiteral budget inside n = g.linkLiteral budget' inside n := by
  induction budget generalizing budget' inside n with
  | zero => omega
  | succ budget ih =>
    cases budget' with
    | zero => omega
    | succ budget' =>
      unfold linkLiteral
      by_cases hm : n ∈ inside
      · simp only [hm, if_true]
      · simp only [hm, if_false]
        by_cases hn : n < g.cells.size
        · have hlt := unopened_cons_lt hn hm
          have htext : g.linkLiteral budget (n :: inside) = g.linkLiteral budget' (n :: inside) :=
            funext fun m => ih m (by omega) (by omega)
          rw [htext]
        · rw [view_of_size_le (Nat.le_of_not_lt hn)]
          rfl

theorem SameBy.dots (h : SameBy g g' cell v v') {n : Nat} (hn : g.Meets v n) :
    g'.dots (cell n) = g.dots n := by
  unfold Graph.dots
  rw [h.content n hn]
  cases g.view (.link n) <;> rfl

/-- Such budgets also give one limit. -/
theorem linkLimit_budget {budget budget' : Nat} {inside : List Nat} (room n : Nat)
    (h : g.unopened inside < budget) (h' : g.unopened inside < budget') :
    g.linkLimit budget inside room n = g.linkLimit budget' inside room n := by
  induction budget generalizing budget' inside room n with
  | zero => omega
  | succ budget ih =>
    cases budget' with
    | zero => omega
    | succ budget' =>
      unfold linkLimit
      by_cases hm : n ∈ inside
      · simp only [hm, if_true]
      · simp only [hm, if_false]
        by_cases hn : n < g.cells.size
        · have hlt := unopened_cons_lt hn hm
          have hlimit : g.linkLimit budget (n :: inside) = g.linkLimit budget' (n :: inside) :=
            funext fun r => funext fun m => ih r m (by omega) (by omega)
          rw [hlimit]
        · rw [view_of_size_le (Nat.le_of_not_lt hn)]
          rfl

theorem SameBy.mem_cells (h : SameBy g g' cell v v') {inside : List Nat} {n : Nat}
    (hi : ∀ m ∈ inside, g.Meets v m) (hn : g.Meets v n) :
    cell n ∈ inside.map cell ↔ n ∈ inside := by
  constructor
  · intro hc
    obtain ⟨m, hm, he⟩ := List.mem_map.mp hc
    rwa [← h.injective m n (hi m hm) hn he]
  · exact List.mem_map_of_mem

theorem SameBy.linkLiteral (h : SameBy g g' cell v v') {budget : Nat} {inside : List Nat} {n : Nat}
    (hi : ∀ m ∈ inside, g.Meets v m) (hn : g.Meets v n) :
    g'.linkLiteral budget (inside.map cell) (cell n) = g.linkLiteral budget inside n := by
  induction budget generalizing inside n with
  | zero => exact h.dots hn
  | succ budget ih =>
    unfold Graph.linkLiteral
    have hmem := h.mem_cells hi hn
    by_cases hm : n ∈ inside
    · simp only [hmem, hm, if_true, h.dots hn]
    · simp only [hmem, hm, if_false, h.content n hn]
      have hinside : ∀ m ∈ n :: inside, g.Meets v m := List.forall_mem_cons.mpr ⟨hn, hi⟩
      exact Value.literalWith_renumber _ fun m hm => ih hinside (.inside hn hm)

theorem SameBy.linkLimit (h : SameBy g g' cell v v') {budget : Nat} {inside : List Nat} {n : Nat}
    (hi : ∀ m ∈ inside, g.Meets v m) (hn : g.Meets v n) (room : Nat) :
    g'.linkLimit budget (inside.map cell) room (cell n) = g.linkLimit budget inside room n := by
  induction budget generalizing inside n room with
  | zero => rfl
  | succ budget ih =>
    unfold Graph.linkLimit
    have hmem := h.mem_cells hi hn
    by_cases hm : n ∈ inside
    · simp only [hmem, hm, if_true]
    · simp only [hmem, hm, if_false, h.content n hn]
      have hinside : ∀ m ∈ n :: inside, g.Meets v m := List.forall_mem_cons.mpr ⟨hn, hi⟩
      exact Value.limitWith_renumber _ _ fun m hm r => ih hinside (.inside hn hm) r

theorem unopened_nil (g : Graph) : g.unopened [] = g.cells.size := by simp [unopened]

/-- Different tables may need different budgets, so both are raised to one that covers either. -/
theorem Same.literal (h : g.Same g' v v') : g'.literal v' = g.literal v := by
  obtain ⟨cell, h⟩ := h
  let budget := g.cells.size + g'.cells.size + 1
  have raised : ∀ (g₀ : Graph) (n : Nat), g₀.cells.size < budget →
      g₀.linkLiteral (g₀.cells.size + 1) [] n = g₀.linkLiteral budget [] n := by
    intro g₀ n hsize
    have hopen := unopened_nil g₀
    exact linkLiteral_budget n (by omega) (by omega)
  unfold Graph.literal
  rw [h.value]
  refine Value.literalWith_renumber v fun n hn => ?_
  rw [raised g' (cell n) (by omega), raised g n (by omega)]
  have hcommon : g'.linkLiteral budget ([].map cell) (cell n) = g.linkLiteral budget [] n :=
    h.linkLiteral (by simp) (.here hn)
  exact hcommon

theorem Same.limitWith (h : g.Same g' v v') (room : Nat) :
    v'.limitWith (g'.linkLimit (g'.cells.size + 1) []) room =
      v.limitWith (g.linkLimit (g.cells.size + 1) []) room := by
  obtain ⟨cell, h⟩ := h
  let budget := g.cells.size + g'.cells.size + 1
  have raised : ∀ (g₀ : Graph) (r n : Nat), g₀.cells.size < budget →
      g₀.linkLimit (g₀.cells.size + 1) [] r n = g₀.linkLimit budget [] r n := by
    intro g₀ r n hsize
    have hopen := unopened_nil g₀
    exact linkLimit_budget r n (by omega) (by omega)
  rw [h.value]
  refine Value.limitWith_renumber v room fun n hn r => ?_
  rw [raised g' r (cell n) (by omega), raised g r n (by omega)]
  have hcommon : g'.linkLimit budget ([].map cell) r (cell n) = g.linkLimit budget [] r n :=
    h.linkLimit (by simp) (.here hn) r
  exact hcommon

theorem Same.text (h : g.Same g' v v') : g'.text v' = g.text v := by
  have hs := (same_mirrors g g').scalar h
  have hl := h.literal
  cases v <;> cases v' <;> simp_all [Value.scalar?, Graph.text]

theorem Same.limit? (h : g.Same g' v v') (hroom : g'.room = g.room) :
    g'.limit? v' = g.limit? v := by
  have hs := (same_mirrors g g').scalar h
  have hl := h.limitWith g.room
  cases v <;> cases v' <;> simp_all [Value.scalar?, Graph.limit?]

end Graph

end OpenApiIR
