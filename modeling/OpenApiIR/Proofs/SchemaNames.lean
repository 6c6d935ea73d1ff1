import OpenApiIR.Proofs.ComponentRefs
import OpenApiIR.Proofs.RefSiblings

/-! References to schemas, read in two ways: as a name, and as a pointer into the document. Both
readings mean one entry of the component schemas, whatever characters its key is made of. Main
statement: this, and that each model is the one that the escaped reference to its key names. -/

namespace OpenApiIR

inductive Graph.SchemasOf (g : Graph) (root : Value) (schemas : Entries) : Prop where
  | intro {es components : Entries} : g.entries? root = some es →
      g.entries? (es.field "components") = some components →
      g.entries? (components.field "schemas") = some schemas → SchemasOf g root schemas

theorem Graph.SchemasOf.components {g : Graph} {root : Value} {schemas : Entries}
    (h : g.SchemasOf root schemas) : g.ComponentsOf root "schemas" schemas := by
  obtain ⟨hroot, hcomponents, hschemas⟩ := h
  exact .intro hroot hcomponents hschemas

namespace Pointer

/-- The reference to the schema under a key, which may hold any characters. -/
def schemaRef (key : String) : String :=
  "#/components/schemas/" ++ String.ofList (escape key.toList)

variable {g : Graph} {root v : Value} {ref name : String} {schemas : Entries}

theorem schemaRef_chars (key : String) :
    (schemaRef key).toList = schemaPath ++ escape key.toList := by
  unfold schemaRef schemaPath
  rw [String.toList_append]
  congr 1
  rw [String.toList_ofList]

theorem schemaName?_eq_some_iff : schemaName? ref = some name ↔
    ∃ raw, ref.toList = schemaPath ++ raw ∧ raw ≠ [] ∧ '/' ∉ raw ∧
      name = String.ofList (unescape raw) := by
  unfold schemaName?
  constructor
  · intro h
    split at h
    · rename_i hpath
      obtain ⟨raw, hraw⟩ := List.isPrefixOf_iff_prefix.mp hpath
      rw [← hraw, List.drop_left] at h
      dsimp only at h
      split at h
      · cases h
      · rename_i hok
        simp only [Bool.or_eq_true, List.isEmpty_iff, List.contains_iff_mem, not_or] at hok
        exact ⟨raw, hraw.symm, hok.1, hok.2, (Option.some.inj h).symm⟩
    · cases h
  · rintro ⟨raw, hraw, hne, hslash, rfl⟩
    have hpath : schemaPath.isPrefixOf ref.toList = true :=
      List.isPrefixOf_iff_prefix.mpr ⟨raw, hraw.symm⟩
    rw [if_pos hpath, hraw, List.drop_left]
    simp [hne, hslash]

theorem schemaName?_schemaRef {key : String} (h : key ≠ "") :
    schemaName? (schemaRef key) = some key := by
  refine schemaName?_eq_some_iff.mpr ⟨_, schemaRef_chars key, fun he => h ?_,
    slash_not_mem_escape key.toList, ?_⟩
  · exact String.toList_eq_nil_iff.mp ((escape_eq_nil_iff key.toList).mp he)
  · rw [unescape_escape, String.ofList_toList]

theorem schemaPath_eq : schemaPath = '#' :: '/' :: componentPath "schemas" := by
  decide +kernel

theorem resolve_schema (hs : g.SchemasOf root schemas) (h : schemaName? ref = some name) :
    resolve g root ref = match schemas.value? (.str name) with
      | some v => .ok v
      | none => .error (.missingKey ref name) := by
  obtain ⟨raw, hraw, _, hslash, rfl⟩ := schemaName?_eq_some_iff.mp h
  rw [schemaPath_eq] at hraw
  exact resolve_component hs.components (by decide) hslash hraw

end Pointer

namespace Schema

variable {g : Graph} {es : Entries}

/-- A map with a `$ref` has the type that the reference alone gives. -/
theorem typeOf_eq_refType {v ref : Value} (he : g.entries? v = some es)
    (hr : es.value? (.str "$ref") = some ref) : typeOf g v = refType ref := by
  rw [typeOf, typeWithin, stepType_eq, (form_ref he hr).1, (form_ref he hr).2,
    TypeRef.orNullable_false, Form.type]

theorem typeOf_ref {v : Value} {ref name : String} (he : g.entries? v = some es)
    (hr : es.value? (.str "$ref") = some (.str ref)) (h : Pointer.schemaName? ref = some name) :
    typeOf g v = .model name := by
  simp only [typeOf_eq_refType he hr, refType, h]

end Schema

theorem Entries.StringKeyed.value?_of_mem {es : Entries} (h : es.StringKeyed) {name : String}
    {v : Value}
    (hv : (.str name, v) ∈ es) : es.value? (.str name) = some v :=
  (Entries.value?_eq_some_iff fun _ _ hx hy => h.distinct.value_unique hx hy).mpr hv

theorem Graph.mapBelow_of_ne_nil {g : Graph} {es : Entries} {key : String}
    (h : g.mapBelow es key ≠ []) :
    g.entries? (es.field key) = some (g.mapBelow es key) := by
  unfold mapBelow at *
  cases he : g.entries? (es.field key) with
  | none => simp [he] at h
  | some below => rfl

namespace IR

variable {d : Document} {es : Entries}

theorem schemasOf_schemaEntries (hroot : d.graph.entries? d.root = some es)
    (h : schemaEntries d.graph es ≠ []) : d.graph.SchemasOf d.root (schemaEntries d.graph es) := by
  have hschemas := Graph.mapBelow_of_ne_nil h
  refine .intro hroot (Graph.mapBelow_of_ne_nil fun hnone => ?_) hschemas
  rw [hnone] at hschemas
  cases hschemas

/-- A model is the one that the escaped reference to its key names: the type of the reference bears
its name, no other model does, and the pointer leads to the fragment that it is made from. -/
structure NamedByRef (d : Document) (ir : IR) (m : Model) : Prop where
  type : ∀ v, d.scope.refOf? v = some (.str (Pointer.schemaRef m.name)) →
    Schema.typeOf d.graph v = .model m.name
  found : ir.model? m.name = some m
  only : ∀ m' ∈ ir.models, m'.name = m.name → m' = m
  fragment : ∃ v, Pointer.resolve d.graph d.root (Pointer.schemaRef m.name) = .ok v ∧
    (Schema.modelEntry d.graph (.str m.name, v)).value = [m]

theorem nodup_model_names (mediaType : String) (h : (schemaEntries d.graph es).StringKeyed) :
    ((resolveEntries d mediaType es).1.models.map (·.name)).Nodup := by
  rw [models_resolveEntries, List.map_flatMap, List.nodup_flatMap]
  have hapart := List.pairwise_map.mp h.nodup_texts
  exact ⟨fun e _ => Schema.nodup_model_names e,
    hapart.imp fun hne => Schema.disjoint_model_names_iff.mpr fun _ _ => hne⟩

theorem entry_of_model {mediaType : String} {m : Model} (h : (schemaEntries d.graph es).StringKeyed)
    (hm : m ∈ (resolveEntries d mediaType es).1.models) :
    ∃ v, (.str m.name, v) ∈ schemaEntries d.graph es ∧
      (Schema.modelEntry d.graph (.str m.name, v)).value = [m] := by
  rw [models_resolveEntries] at hm
  obtain ⟨⟨k, v⟩, he, hm⟩ := List.mem_flatMap.mp hm
  obtain ⟨text, rfl⟩ := h.strings _ he
  obtain ⟨hname, _⟩ := Schema.mem_model_names.mp (List.mem_map_of_mem hm)
  obtain rfl : m.name = text := hname
  obtain ⟨_, _, hvalue, _⟩ := Schema.model_of_object hm
  exact ⟨v, he, hvalue⟩

theorem namedByRef {mediaType : String} {m : Model} (hroot : d.graph.entries? d.root = some es)
    (h : (schemaEntries d.graph es).StringKeyed) (hm : m ∈ (resolveEntries d mediaType es).1.models)
    (hne : m.name ≠ "") : NamedByRef d (resolveEntries d mediaType es).1 m := by
  have hfound : ∀ m' ∈ (resolveEntries d mediaType es).1.models,
      (resolveEntries d mediaType es).1.model? m'.name = some m' :=
    fun m' hm' => find?_eq_self (nodup_model_names mediaType h) hm'
  have hname := Pointer.schemaName?_schemaRef hne
  constructor
  · intro v hv
    obtain ⟨part, he, hr⟩ := Option.bind_eq_some_iff.mp hv
    exact Schema.typeOf_ref he hr hname
  · exact hfound m hm
  · intro m' hm' hsame
    exact Option.some.inj ((hfound m' hm').symm.trans (hsame ▸ hfound m hm))
  · obtain ⟨v, hv, hvalue⟩ := entry_of_model h hm
    have hschemas := schemasOf_schemaEntries hroot (List.ne_nil_of_mem hv)
    refine ⟨v, ?_, hvalue⟩
    rw [Pointer.resolve_schema hschemas hname, h.value?_of_mem hv]

/-- A reference that names a schema is, as a pointer, the way to the schema of that name; every key
has a reference that names it; and each model with a name is the one that the reference to its key
names. -/
theorem schema_refs_agree (mediaType : String) :
    (∀ (g : Graph) (root : Value) (schemas : Entries) (ref name : String),
      g.SchemasOf root schemas → schemas.StringKeyed → Pointer.schemaName? ref = some name →
        (∀ v, (Scalar.str name, v) ∈ schemas → Pointer.resolve g root ref = .ok v) ∧
        ((∀ v, (Scalar.str name, v) ∉ schemas) →
          Pointer.resolve g root ref = .error (.missingKey ref name))) ∧
    (∀ key, key ≠ "" → Pointer.schemaName? (Pointer.schemaRef key) = some key) ∧
    ∀ (d : Document) (es : Entries) (ir : IR), d.graph.entries? d.root = some es →
      (schemaEntries d.graph es).StringKeyed → resolve d mediaType = .ok ir →
        ∀ m ∈ ir.models, m.name ≠ "" → NamedByRef d ir m := by
  refine ⟨fun g root schemas ref name hs hkeys hname => ⟨fun v hv => ?_, fun hnone => ?_⟩,
    fun key => Pointer.schemaName?_schemaRef, fun d es ir hroot hkeys h => ?_⟩
  · rw [Pointer.resolve_schema hs hname, hkeys.value?_of_mem hv]
  · have hvalue : schemas.value? (.str name) = none :=
      Option.eq_none_iff_forall_ne_some.mpr fun v hv => hnone v (Entries.mem_of_value?_str hv)
    rw [Pointer.resolve_schema hs hname, hvalue]
  · obtain rfl := eq_of_resolve h hroot
    intro m hm hne
    exact namedByRef hroot hkeys hm hne

/-- Keys that hold a slash, a tilde, and what looks like an escape. -/
def slashedSchemas : Entries := [
  (.str "a/b~1", .map [(.str "type", .str "object")]),
  (.str "~01", .map [(.str "properties", .map [])])]

def slashedDocument : Document := .ofTree (.map [
  (.str "components", .map [(.str "schemas", .map slashedSchemas)])])

/-- Both schemas are found through their references, and the reference to a key that is none is
refused. -/
theorem slashed_schemas_named : ∃ ir, resolve slashedDocument "application/json" = .ok ir ∧
    ir.models.map (·.name) = ["a/b~1", "~01"] ∧ (∀ m ∈ ir.models, NamedByRef slashedDocument ir m) ∧
    Pointer.schemaName? "#/components/schemas/a~1b~01" = some "a/b~1" ∧
    Pointer.resolve .empty slashedDocument.root "#/components/schemas/a~1b~01" =
      .ok (.map [(.str "type", .str "object")]) ∧
    Pointer.resolve .empty slashedDocument.root "#/components/schemas/~1b" =
      .error (.missingKey "#/components/schemas/~1b" "/b") := by
  obtain ⟨hresolve, hname, hmodels⟩ := schema_refs_agree "application/json"
  have hkeys : slashedSchemas.StringKeyed := .of_names ["a/b~1", "~01"] rfl (by decide)
  have hschemas : Graph.empty.SchemasOf slashedDocument.root slashedSchemas := .intro rfl rfl rfl
  have hok : (resolve slashedDocument "application/json").toOption.map
      (fun ir => ir.models.map (·.name)) = some ["a/b~1", "~01"] := by decide +kernel
  obtain ⟨ir, hir, hnames⟩ := exists_of_toOption hok
  have hnamed := hmodels slashedDocument _ ir rfl hkeys hir
  have hnonempty : ∀ m ∈ ir.models, m.name ≠ "" := by
    intro m hm hempty
    have hmem : m.name ∈ ["a/b~1", "~01"] := hnames ▸ List.mem_map_of_mem hm
    rw [hempty] at hmem
    exact absurd hmem (by decide)
  have hspelled : Pointer.schemaRef "a/b~1" = "#/components/schemas/a~1b~01" := by decide +kernel
  have hread := hname "a/b~1" (by decide)
  rw [hspelled] at hread
  have hother : Pointer.schemaName? "#/components/schemas/~1b" = some "/b" := by decide +kernel
  refine ⟨ir, hir, hnames, fun m hm => hnamed m hm (hnonempty m hm), hread, ?_, ?_⟩
  · exact (hresolve _ _ _ _ _ hschemas hkeys hread).1 _ (.head _)
  · refine (hresolve _ _ _ _ _ hschemas hkeys hother).2 fun v hv => ?_
    simp [slashedSchemas] at hv

end IR

end OpenApiIR
