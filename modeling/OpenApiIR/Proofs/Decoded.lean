import OpenApiIR.Proofs.ComponentRefs
import OpenApiIR.Proofs.DepthLimit

/-! Documents that are read from a text. A key that comes again takes the place of the one before,
so the keys of a map in such a document differ, wherever the map stands, and what links name are
collections. References to components and the depth limit therefore behave as described in all of
them. -/

namespace OpenApiIR

/-- No two keys of a map in the value take each other's place. -/
inductive Value.KeysApart : Value → Prop where
  | scalar (s : Scalar) : KeysApart (.scalar s)
  | seq {items : List Value} : (∀ v ∈ items, KeysApart v) → KeysApart (.seq items)
  | pair {first second : Value} : KeysApart first → KeysApart second →
    KeysApart (.pair first second)
  | map {es : Entries} : es.Distinct → (∀ e ∈ es, KeysApart e.2) → KeysApart (.map es)
  | set {members : List Scalar} : (members.Pairwise fun a b => a.sameKey b = false) →
      KeysApart (.set members)
  | link (cell : Nat) : KeysApart (.link cell)

structure Document.KeysApart (d : Document) : Prop where
  root : d.root.KeysApart
  cells : ∀ v ∈ d.graph.cells, v.KeysApart

namespace Entries

theorem of_mem_put {es : Entries} {k : Scalar} {v : Value} {e : Scalar × Value}
    (h : e ∈ es.put k v) : e ∈ es ∨ e.2 = v := by
  induction es with
  | nil =>
    obtain rfl := List.mem_singleton.mp h
    exact .inr rfl
  | cons f rest ih =>
    rw [put] at h
    split at h
    · rcases List.mem_cons.mp h with rfl | h
      · exact .inr rfl
      · exact .inl (.tail _ h)
    · rcases List.mem_cons.mp h with rfl | h
      · exact .inl (.head _)
      · exact (ih h).imp_left (.tail _)

theorem values_ofPairs {P : Value → Prop} {es : List (Scalar × Value)} (h : ∀ e ∈ es, P e.2) :
    ∀ e ∈ ofPairs es, P e.2 := by
  apply List.foldlRecOn (motive := fun m : Entries => ∀ e ∈ m, P e.2)
  · exact fun _ he => absurd he List.not_mem_nil
  · intro m hm f hf e he
    rcases of_mem_put he with he | he
    · exact hm e he
    · exact he ▸ h f hf

end Entries

namespace Value.KeysApart

variable {es : List (Scalar × Value)} {v : Value}

theorem ofPairs (h : ∀ e ∈ es, e.2.KeysApart) : KeysApart (.map (Entries.ofPairs es)) :=
  .map (Entries.distinct_ofPairs es) (Entries.values_ofPairs h)

theorem keys_ofPairs (es : List (Scalar × Value)) :
    KeysApart (.set ((Entries.ofPairs es).map (·.1))) :=
  .set (Entries.distinct_ofPairs es)

theorem entries {es : Entries} (h : KeysApart (.map es)) :
    es.Distinct ∧ ∀ e ∈ es, e.2.KeysApart := by
  cases h with
  | map hd hes => exact ⟨hd, hes⟩

end Value.KeysApart

/-! JSON. The budget falls from a collection to what is in it, so it carries the induction. -/

namespace Json

variable {budget room : Nat} {cs r : List Char}

structure ReadsApart (budget : Nat) : Prop where
  value : ∀ {room cs v r}, readValue budget room cs = .ok (v, r) → v.KeysApart
  items : ∀ {room cs vs r}, readItems budget room cs = .ok (vs, r) → ∀ v ∈ vs, v.KeysApart
  members : ∀ {room cs es r}, readMembers budget room cs = .ok (es, r) → ∀ e ∈ es, e.2.KeysApart

theorem exists_of_map_ok {ε α β ρ : Type} {x : Except ε (α × ρ)} {f : α → β} {b : β} {r : ρ}
    (h : (x.map fun (a, rest) => (f a, rest)) = .ok (b, r)) : ∃ a, x = .ok (a, r) ∧ f a = b := by
  cases x with
  | error e => cases h
  | ok a =>
    obtain ⟨hb, rfl⟩ := Prod.mk.inj (Except.ok.inj h)
    exact ⟨a.1, rfl, hb⟩

theorem ReadsApart.value_succ (ih : ReadsApart budget) {v : Value}
    (h : readValue (budget + 1) room cs = .ok (v, r)) : v.KeysApart := by
  unfold readValue at h
  split at h
  · obtain ⟨_, _, rfl⟩ := exists_of_map_ok h
    exact .scalar _
  · split at h
    · cases h
    · split at h
      · obtain ⟨rfl, _⟩ := Prod.mk.inj (Except.ok.inj h)
        exact .seq fun _ hv => absurd hv List.not_mem_nil
      · obtain ⟨_, hitems, rfl⟩ := exists_of_map_ok h
        exact .seq (ih.items hitems)
  · split at h
    · cases h
    · split at h
      · obtain ⟨rfl, _⟩ := Prod.mk.inj (Except.ok.inj h)
        exact .map .nil fun _ he => absurd he List.not_mem_nil
      · obtain ⟨_, hmembers, rfl⟩ :=
          exists_of_map_ok (f := fun es => Value.map (Entries.ofPairs es)) h
        exact .ofPairs (ih.members hmembers)
  · obtain ⟨_, _, rfl⟩ := exists_of_map_ok h
    exact .scalar _

theorem ReadsApart.items_succ (ih : ReadsApart budget) {vs : List Value}
    (h : readItems (budget + 1) room cs = .ok (vs, r)) : ∀ v ∈ vs, v.KeysApart := by
  rw [readItems] at h
  obtain ⟨⟨v, _⟩, hv, h⟩ := exists_of_bind_ok h
  dsimp only at h
  split at h
  · obtain ⟨rfl, _⟩ := Prod.mk.inj (Except.ok.inj h)
    exact List.forall_mem_singleton.mpr (ih.value hv)
  · obtain ⟨⟨ws, _⟩, hws, h⟩ := exists_of_bind_ok h
    obtain ⟨rfl, _⟩ := Prod.mk.inj (Except.ok.inj h)
    exact List.forall_mem_cons.mpr ⟨ih.value hv, ih.items hws⟩
  · cases h

theorem ReadsApart.members_succ (ih : ReadsApart budget) {es : List (Scalar × Value)}
    (h : readMembers (budget + 1) room cs = .ok (es, r)) : ∀ e ∈ es, e.2.KeysApart := by
  unfold readMembers at h
  split at h
  · obtain ⟨⟨_, _⟩, _, h⟩ := exists_of_bind_ok h
    dsimp only at h
    split at h
    · obtain ⟨⟨v, _⟩, hv, h⟩ := exists_of_bind_ok h
      dsimp only at h
      split at h
      · obtain ⟨rfl, _⟩ := Prod.mk.inj (Except.ok.inj h)
        exact List.forall_mem_singleton.mpr (ih.value hv)
      · obtain ⟨⟨fs, _⟩, hfs, h⟩ := exists_of_bind_ok h
        obtain ⟨rfl, _⟩ := Prod.mk.inj (Except.ok.inj h)
        exact List.forall_mem_cons.mpr ⟨ih.value hv, ih.members hfs⟩
      · cases h
    · cases h
  · cases h

theorem readsApart (budget : Nat) : ReadsApart budget := by
  induction budget with
  | zero => constructor <;> intro _ _ _ _ h <;> cases h
  | succ budget ih => exact ⟨ih.value_succ, ih.items_succ, ih.members_succ⟩

theorem read_keysApart {text : String} {v : Value} (h : read room text = .ok v) : v.KeysApart := by
  have hchars : readChars room text.toList = .ok v := by
    unfold read at h
    cases hr : readChars room text.toList with
    | ok w =>
      rw [hr] at h
      exact congrArg _ (Except.ok.inj h)
    | error e =>
      rw [hr] at h
      cases h
  unfold readChars at hchars
  split at hchars
  · cases hchars
  · obtain ⟨⟨w, _⟩, hw, hchars⟩ := exists_of_bind_ok hchars
    dsimp only at hchars
    split at hchars
    · obtain rfl := Except.ok.inj hchars
      exact (readsApart _).value hw
    · cases hchars

end Json

/-! YAML. The values of nodes are filled in one by one, each from those that are known. -/

namespace Yaml.NodeGraph

variable {g : NodeGraph} {known : Array Value} {value : Nat → Value}

def KnownApart (known : Array Value) : Prop := ∀ n, (known.getD n .null).KeysApart

theorem KnownApart.set (h : KnownApart known) {v : Value} (hv : v.KeysApart) (n : Nat) :
    KnownApart (known.setIfInBounds n v) := by
  intro m
  rw [Array.getD_eq_getD_getElem?, Array.getElem?_setIfInBounds]
  split
  · split
    · exact hv
    · exact .scalar .null
  · rw [← Array.getD_eq_getD_getElem?]
    exact h m

theorem valueFrom_keysApart (h : ∀ n, (value n).KeysApart) (n : Nat) :
    (g.valueFrom value n).KeysApart := by
  unfold valueFrom
  cases (g.node n).tag with
  | map =>
    refine .ofPairs fun e he => ?_
    obtain ⟨_, _, rfl⟩ := List.mem_map.mp he
    exact h _
  | set => exact .keys_ofPairs _
  | seq =>
    refine .seq fun v hv => ?_
    obtain ⟨_, _, rfl⟩ := List.mem_map.mp hv
    exact h _
  | omap | pairs =>
    refine .seq fun v hv => ?_
    obtain ⟨_, _, rfl⟩ := List.mem_map.mp hv
    exact .pair (h _) (h _)
  | _ => exact .scalar _

theorem knownApart_fold {α : Type} (place : α → Nat) {v : Array Value → α → Value}
    (hv : ∀ known, KnownApart known → ∀ a, (v known a).KeysApart) (as : List α)
    (h : KnownApart known) :
    KnownApart (as.foldl (fun known a => known.setIfInBounds (place a) (v known a)) known) := by
  induction as generalizing known with
  | nil => exact h
  | cons a as ih => exact ih (h.set (hv known h a) (place a))

theorem document_keysApart (room : Nat) (g : NodeGraph) : (g.document room).KeysApart := by
  have hblank : KnownApart (Array.replicate g.size Value.null) := by
    intro n
    rw [Array.getD_eq_getD_getElem?, Array.getElem?_replicate]
    split <;> exact .scalar .null
  have hlinks := knownApart_fold Prod.fst (v := fun _ a => .link a.2)
    (fun _ _ a => .link a.2) g.cycles.zipIdx hblank
  have hknown := knownApart_fold id (v := fun known n =>
    g.valueFrom (fun m => known.getD m .null) n) (fun _ hk n => valueFrom_keysApart hk n)
    (g.order g.cycles) hlinks
  refine ⟨hknown g.root, fun v hv => ?_⟩
  obtain ⟨n, _, rfl⟩ := List.mem_map.mp (List.mem_toArray.mp hv)
  exact valueFrom_keysApart hknown n

end Yaml.NodeGraph

theorem Document.keysApart_ofTreeIn {v : Value} (h : v.KeysApart) (room : Nat) :
    (Document.ofTreeIn room v).KeysApart where
  root := h
  cells _ hw := absurd hw (Array.not_mem_empty _)

theorem Yaml.read_keysApart {room : Nat} {text : String} {d : Document}
    (h : Yaml.read room text = .ok d) : d.KeysApart := by
  obtain ⟨parsed, _, hd⟩ := exists_of_bind_ok h
  cases parsed with
  | none =>
    obtain rfl := Except.ok.inj hd
    exact Document.keysApart_ofTreeIn (.scalar .null) room
  | some g =>
    obtain ⟨_, _, hd⟩ := exists_of_bind_ok hd
    obtain ⟨_, _, hd⟩ := exists_of_bind_ok hd
    obtain rfl := Except.ok.inj hd
    exact g.document_keysApart room

namespace Document.KeysApart

variable {d : Document} {v : Value} {es : Entries} {kind : String}

theorem view (h : d.KeysApart) (hv : v.KeysApart) : (d.graph.view v).KeysApart := by
  unfold Graph.view
  split
  · split
    · exact .scalar .null
    · exact .scalar .null
    · rename_i hcell
      exact h.cells _ (Array.mem_of_getElem? hcell)
  · exact hv

theorem entries? (h : d.KeysApart) (hv : v.KeysApart) (hes : d.graph.entries? v = some es) :
    es.Distinct ∧ ∀ e ∈ es, e.2.KeysApart := by
  have hview := h.view hv
  rw [Graph.entries?_eq_some_iff.mp hes] at hview
  exact hview.entries

theorem field (hes : ∀ e ∈ es, e.2.KeysApart) (name : String) : (es.field name).KeysApart := by
  unfold Entries.field
  cases hw : es.value? (.str name) with
  | none => exact .scalar .null
  | some w => exact hes _ (Entries.mem_of_value?_str hw)

theorem components (h : d.KeysApart) {entries : Entries}
    (hs : d.graph.ComponentsOf d.root kind entries) : entries.Distinct := by
  obtain ⟨hroot, hcomponents, hentries⟩ := hs
  have hes := (h.entries? h.root hroot).2
  have hkinds := (h.entries? (field hes _) hcomponents).2
  exact (h.entries? (field hkinds _) hentries).1

end Document.KeysApart

namespace Load.Decodes

variable {room : Nat} {hint : FormatHint} {text : String} {d : Document}

theorem keysApart (h : Decodes (readYaml room) room hint text d) : d.KeysApart := by
  cases h with
  | json _ hv => exact Document.keysApart_ofTreeIn (Json.read_keysApart hv) room
  | yaml _ hd => exact Yaml.read_keysApart (readYaml_eq_ok_iff.mp hd)

/-- Whatever text a document was read from, references to its components lead where the texts of the
keys say. -/
theorem reachedByText (h : Decodes (readYaml room) room hint text d) {kind : Reusable}
    {entries : Entries} (hs : d.graph.ComponentsOf d.root kind.name entries) {e : Scalar × Value}
    (he : e ∈ entries) {u : Value}
    (hu : d.scope.refOf? u = some (.str (Pointer.componentRef kind.name e.1.text))) :
    ReachedByText d kind entries e u :=
  OpenApiIR.reachedByText hs (h.keysApart.components hs) he hu

/-- Every fragment of it has the type of what it unrolls to, cut at the limit and resolved without
one. -/
theorem typeOf_cut (h : Decodes (readYaml room) room hint text d) (v : Value) {levels : Nat}
    (hlevels : 2 * (Schema.depthLimit + 1) + 1 ≤ levels) :
    Schema.typeOf d.graph v =
      Schema.fullType (Schema.cut (Schema.depthLimit + 1) (Schema.unroll d.graph levels v)) := by
  rw [← Schema.typeWithin_cut, Schema.typeWithin_unroll h.namesCollections hlevels, Schema.typeOf]

end Load.Decodes

end OpenApiIR
