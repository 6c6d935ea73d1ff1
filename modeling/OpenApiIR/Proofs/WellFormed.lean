import Mathlib.Tactic.SplitIfs
import OpenApiIR.IR.Basic
import OpenApiIR.Schema.Resolve

/-! Well-formed types, and that every fragment resolves to one: a list or a map has an item, a model
has a name, and items are nested no deeper than fragments are read. -/

namespace OpenApiIR

namespace TypeRef

/-- The item of a type, the item of that item, and so on. -/
def items : TypeRef → List TypeRef
  | ⟨_, _, some t, _⟩ => t :: t.items
  | ⟨_, _, none, _⟩ => []

structure PartsFit (t : TypeRef) : Prop where
  item : t.item.isSome = true ↔ t.kind = .list ∨ t.kind = .map
  refName : t.refName.isSome = true ↔ t.kind = .model
  named : t.refName ≠ some ""

instance (t : TypeRef) : Decidable t.PartsFit :=
  decidable_of_iff
    ((t.item.isSome = true ↔ t.kind = .list ∨ t.kind = .map) ∧
      (t.refName.isSome = true ↔ t.kind = .model) ∧ t.refName ≠ some "")
    ⟨fun h => ⟨h.1, h.2.1, h.2.2⟩, fun h => ⟨h.item, h.refName, h.named⟩⟩

def FitsWithin (n : Nat) (t : TypeRef) : Prop :=
  (∀ s ∈ t :: t.items, s.PartsFit) ∧ t.items.length ≤ n

def WellFormed (t : TypeRef) : Prop := t.FitsWithin 65

theorem items_orNullable (t : TypeRef) (b : Bool) : (t.orNullable b).items = t.items := by
  cases t with
  | mk k n item r => cases item <;> rfl

variable {n : Nat} {t : TypeRef} {name : String}

theorem PartsFit.kind_of_name (h : t.PartsFit) (hn : t.refName = some name) : t.kind = .model :=
  h.refName.mp (hn ▸ rfl)

theorem PartsFit.kind_of_no_name (h : t.PartsFit) (hn : t.refName = none) : t.kind ≠ .model := by
  intro hk
  have hsome := h.refName.mpr hk
  rw [hn] at hsome
  cases hsome

theorem PartsFit.item_of_name (h : t.PartsFit) (hn : t.refName = some name) : t.item = none := by
  have hitem := h.item
  rw [h.kind_of_name hn] at hitem
  simpa using hitem

theorem PartsFit.kind_of_no_item (h : t.PartsFit) (hi : t.item = none) :
    t.kind ≠ .list ∧ t.kind ≠ .map := by
  have hitem := h.item
  rw [hi] at hitem
  simpa using hitem

theorem FitsWithin.mono {m : Nat} (h : t.FitsWithin n) (hm : n ≤ m) : t.FitsWithin m :=
  ⟨h.1, Nat.le_trans h.2 hm⟩

theorem FitsWithin.orNullable (h : t.FitsWithin n) (b : Bool) : (t.orNullable b).FitsWithin n := by
  refine ⟨fun s hs => ?_, by rw [items_orNullable]; exact h.2⟩
  rw [items_orNullable] at hs
  rcases List.mem_cons.mp hs with rfl | hs
  · have ht := h.1 t List.mem_cons_self
    exact ⟨ht.item, ht.refName, ht.named⟩
  · exact h.1 s (List.mem_cons_of_mem t hs)

theorem fitsWithin_leaf {t : TypeRef} (hi : t.items = []) (h : t.PartsFit) : t.FitsWithin n := by
  refine ⟨fun s hs => ?_, by simp [hi]⟩
  rw [hi] at hs
  rw [List.mem_singleton.mp hs]
  exact h

theorem fitsWithin_plain {k : TypeKind} (hl : k ≠ .list) (hm : k ≠ .map) (hr : k ≠ .model) :
    (plain k).FitsWithin n :=
  fitsWithin_leaf rfl ⟨by simp [plain, TypeRef.item, TypeRef.kind, hl, hm],
    by simp [plain, TypeRef.refName, TypeRef.kind, hr], by simp [plain, TypeRef.refName]⟩

theorem fitsWithin_any : any.FitsWithin n := fitsWithin_plain (by decide) (by decide) (by decide)

theorem fitsWithin_model {name : String} (h : name ≠ "") : (model name).FitsWithin n :=
  fitsWithin_leaf rfl ⟨by simp [model, TypeRef.item, TypeRef.kind],
    by simp [model, TypeRef.refName, TypeRef.kind], by simpa [model, TypeRef.refName] using h⟩

theorem FitsWithin.around {u : TypeRef} (h : t.FitsWithin n) (hi : u.items = t :: t.items)
    (hu : u.PartsFit) : u.FitsWithin (n + 1) := by
  refine ⟨fun s hs => ?_, ?_⟩
  · rcases List.mem_cons.mp hs with rfl | hs
    · exact hu
    · rw [hi] at hs
      exact h.1 s hs
  · have := h.2
    simp only [hi, List.length_cons]
    omega

theorem FitsWithin.listOf (h : t.FitsWithin n) : (listOf t).FitsWithin (n + 1) :=
  h.around rfl ⟨by simp [TypeRef.listOf, TypeRef.item, TypeRef.kind],
    by simp [TypeRef.listOf, TypeRef.refName, TypeRef.kind],
    by simp [TypeRef.listOf, TypeRef.refName]⟩

theorem FitsWithin.mapOf (h : t.FitsWithin n) : (mapOf t).FitsWithin (n + 1) :=
  h.around rfl ⟨by simp [TypeRef.mapOf, TypeRef.item, TypeRef.kind],
    by simp [TypeRef.mapOf, TypeRef.refName, TypeRef.kind],
    by simp [TypeRef.mapOf, TypeRef.refName]⟩

end TypeRef

namespace Schema

open TypeRef

variable {n : Nat}

theorem refType_fits (ref : Value) : (refType ref).FitsWithin n := by
  unfold refType
  split
  · split
    · rename_i h
      exact fitsWithin_model (Pointer.schemaName?_ne_empty h)
    · exact fitsWithin_any
  · exact fitsWithin_any

theorem wordType_fits (word : String) : (wordType word).FitsWithin (n + 1) := by
  unfold wordType
  split_ifs
  · exact fitsWithin_plain (by decide) (by decide) (by decide)
  · exact fitsWithin_plain (by decide) (by decide) (by decide)
  · exact fitsWithin_plain (by decide) (by decide) (by decide)
  · exact fitsWithin_plain (by decide) (by decide) (by decide)
  · exact fitsWithin_any.listOf
  · exact fitsWithin_any.mapOf
  · exact fitsWithin_any

theorem typeArrayType_fits (words : List Value) : (typeArrayType words).FitsWithin (n + 1) := by
  unfold typeArrayType
  refine FitsWithin.orNullable ?_ _
  split
  · exact wordType_fits _
  · exact fitsWithin_any

variable {g : Graph} {inner : Value → TypeRef}

theorem scalarType_fits (h : ∀ v, (inner v).FitsWithin n) (es : Entries) (word : String) :
    (scalarType g inner es word).FitsWithin (n + 1) := by
  have part : ∀ key,
      (if g.isMap (es.field key) then inner (es.field key) else .any).FitsWithin n := by
    intro key
    split
    · exact h _
    · exact fitsWithin_any
  unfold scalarType
  dsimp only
  split
  · split <;> exact fitsWithin_plain (by decide) (by decide) (by decide)
  split
  · exact (part "items").listOf
  split
  · exact (part "additionalProperties").mapOf
  · exact wordType_fits word

theorem unionType_fits (h : ∀ v, (inner v).FitsWithin n) (es : Entries) :
    (unionType g inner es).FitsWithin n := by
  unfold unionType
  split
  · exact fitsWithin_any
  · dsimp only
    split
    · exact fitsWithin_any.orNullable _
    · exact (h _).orNullable _

theorem stepType_fits (h : ∀ v, (inner v).FitsWithin n) (v : Value) :
    (stepType g inner v).FitsWithin (n + 1) := by
  unfold stepType
  split
  · exact fitsWithin_any
  split
  · exact refType_fits _
  refine FitsWithin.orNullable ?_ _
  unfold bareType
  split
  · exact (unionType_fits h _).mono (Nat.le_succ n)
  split
  · exact typeArrayType_fits _
  · split
    · exact scalarType_fits h _ _
    · exact fitsWithin_any
  · exact fitsWithin_any

/-- One level of fragments adds at most one step to a chain of items. -/
theorem typeWithin_fits (g : Graph) (levels : Nat) (v : Value) :
    (typeWithin g levels v).FitsWithin levels := by
  induction levels generalizing v with
  | zero => exact fitsWithin_any
  | succ levels ih => exact stepType_fits ih v

theorem typeOf_wellFormed (g : Graph) (v : Value) : (typeOf g v).WellFormed :=
  typeWithin_fits g (depthLimit + 1) v

end Schema

/-! Well-formed parts of a resolved document. -/

/-- What is optional may be null. -/
structure Property.WellFormed (p : Property) : Prop where
  type : p.type.WellFormed
  optional : p.isRequired = false → p.type.nullable = true

/-- The same, and a place in the path is never optional. -/
structure Parameter.WellFormed (p : Parameter) : Prop where
  type : p.type.WellFormed
  optional : p.isRequired = false → p.type.nullable = true
  named : p.name ≠ ""
  inPath : p.location = .path → p.isRequired = true

def RequestBody.WellFormed (b : RequestBody) : Prop := b.type.WellFormed

def Response.WellFormed (r : Response) : Prop := r.type.WellFormed

structure Endpoint.WellFormed (e : Endpoint) : Prop where
  parameters : ∀ p ∈ e.parameters, p.WellFormed
  requestBody : ∀ b, e.requestBody = some b → b.WellFormed
  responses : ∀ r ∈ e.responses, r.2.WellFormed ∧ r.1 = r.2.statusCode

def Model.WellFormed (m : Model) : Prop := ∀ p ∈ m.properties, p.WellFormed

structure IR.WellFormed (ir : IR) : Prop where
  models : ∀ m ∈ ir.models, m.WellFormed
  endpoints : ∀ e ∈ ir.endpoints, e.WellFormed

end OpenApiIR
