import OpenApiIR.IR.Resolve
import OpenApiIR.Proofs.Chain
import OpenApiIR.Proofs.Locality
import OpenApiIR.Proofs.Navigation
import OpenApiIR.Proofs.PathEntries
import OpenApiIR.Proofs.SchemaEntries

/-! How a resolved document is put together: which entries are walked and in which order. Models are
the contributions of the component schemas and endpoints those of the paths, one for each entry, and
the diagnostics of either walk are told apart by their kinds. Between the entries a limit of the
runtime has no handler, so a document is resolved to the end exactly where none is met there. -/

namespace OpenApiIR

def Graph.mapBelow (g : Graph) (es : Entries) (key : String) : Entries :=
  (g.entries? (es.field key)).getD []

namespace IR

def schemaEntries (g : Graph) (es : Entries) : Entries :=
  g.mapBelow (g.mapBelow es "components") "schemas"

def pathEntries (g : Graph) (es : Entries) : Entries := g.mapBelow es "paths"

/-- The operations that the walk over the paths meets, each with the parameters of its path item. -/
inductive IsOperation (d : Document) (es : Entries) : String → Method → Value → Value → Prop where
  | intro {entry o : Scalar × Value} {v : Value} {item : Entries} {m : Method} :
      entry ∈ pathEntries d.graph es → d.scope.follow entry.2 = .ok v →
      d.graph.entries? v = some item → o ∈ item → Endpoint.Spells o.1 m →
      IsOperation d es entry.1.text m o.2 (item.field "parameters")

theorem value_sectionOf (g : Graph) (es : Entries) (key subject : String) :
    (sectionOf g es key subject).value = g.mapBelow es key := by
  unfold sectionOf Graph.mapBelow Graph.entries?
  cases g.view (es.field key) with
  | scalar s => cases s <;> rfl
  | _ => rfl

theorem sectionOf_is_document (g : Graph) (es : Entries) (key subject : String) :
    ∀ d ∈ (sectionOf g es key subject).trace.diagnostics, d.kind = .document := by
  unfold sectionOf
  split <;> simp

theorem resolveVersion_is_document (g : Graph) (es : Entries) :
    ∀ d ∈ (resolveVersion g es).trace.diagnostics, d.kind = .document := by
  unfold resolveVersion
  dsimp only
  split <;> simp

open Report in
theorem not_halts_sectionOf (g : Graph) (es : Entries) (key subject : String) :
    ¬ (sectionOf g es key subject).Halts := by
  unfold sectionOf
  split <;> simp

/-- A limit that no handler is made for: it is met in a text of the version, in the name of a
component schema or of a path, in the reference of a path item, or in the version of the `info`. -/
inductive Unhandled (d : Document) (es : Entries) : Prop where
  | declared {l : Limit} : checkVersion d.graph es = .error (.limit l) → Unhandled d es
  | shown {e : VersionError} {l : Limit} : checkVersion d.graph es = .error e →
      d.graph.limit? (es.field "openapi") = some l → Unhandled d es
  | schema {e : Scalar × Value} {l : Limit} : e ∈ schemaEntries d.graph es →
      e.1.limit? = some l → Unhandled d es
  | path {e : Scalar × Value} {l : Limit} : e ∈ pathEntries d.graph es →
      e.1.limit? = some l → Unhandled d es
  | item {e : Scalar × Value} {l : Limit} : e ∈ pathEntries d.graph es →
      d.scope.follow e.2 = .error (.limit l) → Unhandled d es
  | info {l : Limit} : infoLimit? d.graph es = some l → Unhandled d es

open Report in
theorem halts_resolveVersion {g : Graph} {es : Entries} : (resolveVersion g es).Halts ↔
    (∃ l, checkVersion g es = .error (.limit l)) ∨
      ∃ e l, checkVersion g es = .error e ∧ g.limit? (es.field "openapi") = some l := by
  unfold resolveVersion
  dsimp only
  split
  · rename_i h
    simp [h]
  · rename_i l h
    simp [h]
  · rename_i e hne h
    rw [halts_bind, halts_showing, h]
    have hnot : ∀ l, e ≠ .limit l := hne
    simp [hnot]

open Report in
@[simp] theorem halts_modelEntry {g : Graph} {e : Scalar × Value} :
    (Schema.modelEntry g e).Halts ↔ ∃ l, e.1.limit? = some l := by
  rw [Schema.modelEntry_eq, halts_showing, Schema.contribution_eq]
  split <;> simp

open Report in
theorem halts_resolveParts {d : Document} {mediaType : String} {es : Entries} :
    (resolveParts d mediaType es).Halts ↔
      (resolveVersion d.graph es).Halts ∨
      (∃ e ∈ schemaEntries d.graph es, ∃ l, e.1.limit? = some l) ∨
      ∃ e ∈ pathEntries d.graph es,
        ∃ l, e.1.limit? = some l ∨ d.scope.follow e.2 = .error (.limit l) := by
  simp only [resolveParts, resolveModels, resolveEndpoints, halts_bind, halts_gather,
    not_halts_sectionOf, not_halts_pure, value_sectionOf, halts_modelEntry,
    Endpoint.halts_pathEntry, false_or, or_false, schemaEntries, pathEntries, Document.scope]

theorem unhandled_iff (d : Document) (mediaType : String) (es : Entries) : Unhandled d es ↔
    (resolveParts d mediaType es).Halts ∨ ∃ l, infoLimit? d.graph es = some l := by
  rw [halts_resolveParts, halts_resolveVersion]
  constructor
  · rintro (h | ⟨h, hl⟩ | ⟨he, h⟩ | ⟨he, h⟩ | ⟨he, h⟩ | h)
    · exact Or.inl (Or.inl (Or.inl ⟨_, h⟩))
    · exact Or.inl (Or.inl (Or.inr ⟨_, _, h, hl⟩))
    · exact Or.inl (Or.inr (Or.inl ⟨_, he, _, h⟩))
    · exact Or.inl (Or.inr (Or.inr ⟨_, he, _, Or.inl h⟩))
    · exact Or.inl (Or.inr (Or.inr ⟨_, he, _, Or.inr h⟩))
    · exact Or.inr ⟨_, h⟩
  · rintro (((⟨l, h⟩ | ⟨e, l, h, hl⟩) | ⟨e, he, l, h⟩ | ⟨e, he, l, h | h⟩) | ⟨l, h⟩)
    · exact .declared h
    · exact .shown h hl
    · exact .schema he h
    · exact .path he h
    · exact .item he h
    · exact .info h

variable (d : Document) (mediaType : String) (es : Entries)

theorem resolveWithLog_map (h : d.graph.entries? d.root = some es) :
    (¬ Unhandled d es ∧ resolveWithLog d mediaType = .ok (resolveEntries d mediaType es)) ∨
      Unhandled d es ∧ ∃ l log, resolveWithLog d mediaType = .error (.limit l log) := by
  have hiff := unhandled_iff d mediaType es
  unfold Report.Halts at hiff
  simp only [resolveWithLog, h]
  cases hp : (resolveParts d mediaType es).trace.halt? with
  | some l => exact Or.inr ⟨hiff.mpr (Or.inl ⟨l, hp⟩), _, _, rfl⟩
  | none =>
    cases hi : infoLimit? d.graph es with
    | some l => exact Or.inr ⟨.info hi, _, _, rfl⟩
    | none =>
      refine Or.inl ⟨fun hu => ?_, rfl⟩
      have hcases := hiff.mp hu
      simp [hp, hi] at hcases

theorem resolve_ok_iff {ir : IR} : resolve d mediaType = .ok ir ↔
    ∃ es, d.graph.entries? d.root = some es ∧ ¬ Unhandled d es ∧
      ir = (resolveEntries d mediaType es).1 := by
  unfold resolve
  constructor
  · intro h
    cases hr : d.graph.entries? d.root with
    | none => simp [resolveWithLog, hr, Except.map] at h
    | some es =>
      rcases resolveWithLog_map d mediaType es hr with ⟨hu, hres⟩ | ⟨_, l, log, hres⟩
      · rw [hres] at h
        exact ⟨es, rfl, hu, (Except.ok.inj h).symm⟩
      · rw [hres] at h
        cases h
  · rintro ⟨es, he, hu, rfl⟩
    rcases resolveWithLog_map d mediaType es he with ⟨_, hres⟩ | ⟨hu', _⟩
    · rw [hres]
      rfl
    · exact absurd hu' hu

theorem models_resolveEntries :
    (resolveEntries d mediaType es).1.models =
      (schemaEntries d.graph es).flatMap fun e => (Schema.modelEntry d.graph e).value := by
  have h : (resolveEntries d mediaType es).1.models = (resolveModels d.graph es).value := rfl
  simp [h, resolveModels, value_sectionOf, schemaEntries]

theorem endpoints_resolveEntries :
    (resolveEntries d mediaType es).1.endpoints =
      (pathEntries d.graph es).flatMap fun e => (Endpoint.pathEntry d.scope mediaType e).value := by
  have h : (resolveEntries d mediaType es).1.endpoints =
      (resolveEndpoints d.scope mediaType es).value := rfl
  simp [h, resolveEndpoints, value_sectionOf, pathEntries]

/-- The diagnostics of the version, the sections and the entries, in the order of the walk. -/
theorem diagnostics_resolveEntries :
    (resolveEntries d mediaType es).1.diagnostics =
      (resolveVersion d.graph es).trace.diagnostics ++
      ((sectionOf d.graph es "components" "components").trace.diagnostics ++
        ((sectionOf d.graph (d.graph.mapBelow es "components") "schemas"
            "components.schemas").trace.diagnostics ++
          (schemaEntries d.graph es).flatMap fun e =>
            (Schema.modelEntry d.graph e).trace.diagnostics) ++
      ((sectionOf d.graph es "paths" "paths").trace.diagnostics ++
        (pathEntries d.graph es).flatMap fun e =>
          (Endpoint.pathEntry d.scope mediaType e).trace.diagnostics)) := by
  have h : (resolveEntries d mediaType es).1.diagnostics =
      (resolveParts d mediaType es).trace.diagnostics := rfl
  simp [h, resolveParts, resolveModels, resolveEndpoints, value_sectionOf, schemaEntries,
    pathEntries]

theorem filter_diagnostics (p : EntryKind → Bool) (hd : p .document = false) :
    (resolveEntries d mediaType es).1.diagnostics.filter (fun x => p x.kind) =
      ((schemaEntries d.graph es).flatMap fun e =>
        (Schema.modelEntry d.graph e).trace.diagnostics).filter (fun x => p x.kind) ++
      ((pathEntries d.graph es).flatMap fun e =>
        (Endpoint.pathEntry d.scope mediaType e).trace.diagnostics).filter (fun x => p x.kind) := by
  -- The version and the sections are told of as the document, so nothing of theirs is kept.
  have none_left : ∀ xs : List Diagnostic, (∀ x ∈ xs, x.kind = .document) →
      xs.filter (fun x => p x.kind) = [] := by
    intro xs h
    rw [List.filter_eq_nil_iff]
    intro x hx
    simp [h x hx, hd]
  rw [diagnostics_resolveEntries]
  simp only [List.filter_append, none_left _ (sectionOf_is_document _ _ _ _),
    none_left _ (resolveVersion_is_document _ _), List.nil_append]

theorem schema_diagnostics_kind {x : Diagnostic}
    (hx : x ∈ (schemaEntries d.graph es).flatMap fun e =>
    (Schema.modelEntry d.graph e).trace.diagnostics) :
    x.kind.isOfSchemas = true ∧ x.kind.isOfPaths = false := by
  obtain ⟨e, _, hx⟩ := List.mem_flatMap.mp hx
  rw [Schema.modelEntry_eq, Report.diagnostics_showing] at hx
  have h := (Schema.contribution_ensures d.graph e.1.text e.2).diagnostics x hx
  cases hk : x.kind <;> simp_all [EntryKind.isOfSchemas, EntryKind.isOfPaths]

theorem path_diagnostics_kind {x : Diagnostic} (hx : x ∈ (pathEntries d.graph es).flatMap fun e =>
    (Endpoint.pathEntry d.scope mediaType e).trace.diagnostics) :
    x.kind.isOfPaths = true ∧ x.kind.isOfSchemas = false := by
  obtain ⟨e, _, hx⟩ := List.mem_flatMap.mp hx
  have h := (Endpoint.pathEntry_ensures e).diagnostics x hx
  cases hk : x.kind <;> simp_all [EntryKind.isOfSchemas, EntryKind.isOfPaths]

theorem filter_of_schemas :
    (resolveEntries d mediaType es).1.diagnostics.filter (·.kind.isOfSchemas) =
      (schemaEntries d.graph es).flatMap fun e =>
        (Schema.modelEntry d.graph e).trace.diagnostics := by
  rw [filter_diagnostics d mediaType es EntryKind.isOfSchemas rfl,
    List.filter_eq_self.mpr fun x hx => (schema_diagnostics_kind d es hx).1,
    List.filter_eq_nil_iff.mpr fun x hx => by simp [(path_diagnostics_kind d mediaType es hx).2],
    List.append_nil]

theorem filter_of_paths :
    (resolveEntries d mediaType es).1.diagnostics.filter (·.kind.isOfPaths) =
      (pathEntries d.graph es).flatMap fun e =>
        (Endpoint.pathEntry d.scope mediaType e).trace.diagnostics := by
  rw [filter_diagnostics d mediaType es EntryKind.isOfPaths rfl,
    List.filter_eq_nil_iff.mpr fun x hx => by simp [(schema_diagnostics_kind d es hx).2],
    List.filter_eq_self.mpr fun x hx => (path_diagnostics_kind d mediaType es hx).1,
    List.nil_append]

variable {d es mediaType} {ir : IR}

theorem contribution_agree {g g' : Graph} {name : String} {fragment : Value}
    (h : g.AgreeFrom g' fragment) :
    Schema.contribution g' name fragment = Schema.contribution g name fragment :=
  -- A text as the key is its own name, and always written.
  have hentry := Schema.modelEntry_agree (e := (.str name, fragment)) h
  hentry

theorem eq_of_resolve (h : resolve d mediaType = .ok ir)
    (hroot : d.graph.entries? d.root = some es) :
    ir = (resolveEntries d mediaType es).1 := by
  obtain ⟨es', he, _, hir⟩ := (resolve_ok_iff d mediaType).mp h
  rwa [Option.some.inj (hroot.symm.trans he)]

theorem exists_of_toBool {ε α : Type} {x : Except ε α} (h : x.toBool = true) : ∃ a, x = .ok a := by
  cases x with
  | error e => cases h
  | ok a => exact ⟨a, rfl⟩

theorem exists_of_toOption {ε α β : Type} {x : Except ε α} {f : α → β} {b : β}
    (h : x.toOption.map f = some b) : ∃ a, x = .ok a ∧ f a = b := by
  cases x with
  | error e => cases h
  | ok a => exact ⟨a, rfl, Option.some.inj h⟩

/-- No schema is lost and none is doubled: models, and the diagnostics of models and properties, are
the contributions of the component schemas in their order. Each is accounted for by itself, and
stays the same in any graph that agrees on what its fragment reaches. -/
theorem every_schema_accounted {components schemas : Entries} (h : resolve d mediaType = .ok ir)
    (hroot : d.graph.entries? d.root = some es)
    (hcomponents : d.graph.entries? (es.field "components") = some components)
    (hschemas : d.graph.entries? (components.field "schemas") = some schemas) :
    ir.models = schemas.flatMap
        (fun e => (Schema.contribution d.graph e.1.text e.2).value) ∧
      ir.diagnostics.filter (·.kind.isOfSchemas) = schemas.flatMap
        (fun e => (Schema.contribution d.graph e.1.text e.2).trace.diagnostics) ∧
      ∀ e ∈ schemas,
        Schema.Accounted d.graph e.1.text e.2 (Schema.contribution d.graph e.1.text e.2) ∧
        ∀ g', d.graph.AgreeFrom g' e.2 →
          Schema.contribution g' e.1.text e.2 = Schema.contribution d.graph e.1.text e.2 := by
  have he : schemaEntries d.graph es = schemas := by
    simp [schemaEntries, Graph.mapBelow, hcomponents, hschemas]
  obtain rfl := eq_of_resolve h hroot
  refine ⟨?_, ?_, fun e _ => ⟨?_, fun g' hagree => ?_⟩⟩
  · simp only [models_resolveEntries, he, Schema.modelEntry_eq, Report.value_showing]
  · simp only [filter_of_schemas, he, Schema.modelEntry_eq, Report.diagnostics_showing]
  · exact Schema.contribution_accounted d.graph e.1.text e.2
  · exact contribution_agree hagree

def mixedSchemas : Entries := [
  (.str "Widget", .map [(.str "properties", .map [
    (.str "id", .map [(.str "type", .str "integer")]), (.str "bad", .int 3)])]),
  (.str "Plain", .map [(.str "type", .str "string"), (.str "required", .int 1)]),
  (.str "Broken", .seq []),
  (.str "Odd", .map [(.str "type", .str "object"), (.str "required", .int 1)])]

def mixedComponents : Entries := [(.str "schemas", .map mixedSchemas)]

def schemasDocument : Document := .ofTree (.map [(.str "components", .map mixedComponents)])

theorem mixed_schemas_accounted : ∃ ir, resolve schemasDocument "application/json" = .ok ir ∧
    ir.models.map (·.name) = ["Widget"] ∧
    (ir.diagnostics.filter (·.kind.isOfSchemas)).map (·.subject) =
    ["Widget.bad", "Broken", "Odd"] := by
  obtain ⟨ir, h⟩ : ∃ ir, resolve schemasDocument "application/json" = .ok ir := ⟨_, rfl⟩
  obtain ⟨hm, hd, _⟩ :=
    @every_schema_accounted schemasDocument "application/json" _ ir mixedComponents mixedSchemas
      h rfl rfl rfl
  exact ⟨ir, h, by rw [hm]; rfl, by rw [hd]; rfl⟩

def longRequired : Value :=
  .map [(.str "type", .str "object"), (.str "required", .seq [.int (.ofNat (10 ^ Limit.digits))])]

def longRequiredDocument : Document := .ofTree (.map [(.str "openapi", .str "3.0.0"),
  (.str "components", .map [(.str "schemas", .map [(.str "Widget", longRequired)])])])

theorem long_required_loses_model : Schema.IsObject .empty longRequired [] ∧
    ∃ ir, resolve longRequiredDocument "application/json" = .ok ir ∧ ir.models = [] ∧
      ir.diagnostics = [⟨.model, "Widget", .limit .written⟩] := by
  have hok : (resolve longRequiredDocument "application/json").toOption.map
      (fun ir => (ir.models, ir.diagnostics)) =
      some ([], [⟨.model, "Widget", .limit .written⟩]) := by
    decide +kernel
  obtain ⟨ir, h, hparts⟩ := exists_of_toOption hok
  exact ⟨⟨_, rfl, .absent rfl rfl, Or.inr ⟨_, rfl⟩⟩, ir, h, Prod.mk.inj hparts⟩

/-- No operation is lost and none is doubled: endpoints, and the diagnostics of the walk over the
paths, are the contributions of the paths in their order. -/
theorem every_path_accounted {paths : Entries} (h : resolve d mediaType = .ok ir)
    (hroot : d.graph.entries? d.root = some es)
    (hpaths : d.graph.entries? (es.field "paths") = some paths) :
    ir.endpoints = paths.flatMap (fun e => (Endpoint.pathEntry d.scope mediaType e).value) ∧
      ir.diagnostics.filter (·.kind.isOfPaths) = paths.flatMap
        (fun e => (Endpoint.pathEntry d.scope mediaType e).trace.diagnostics) ∧
      ∀ e ∈ paths, (∀ l, d.scope.follow e.2 ≠ .error (.limit l)) ∧
        Endpoint.PathAccounted d.scope mediaType e (Endpoint.pathEntry d.scope mediaType e) := by
  have he : pathEntries d.graph es = paths := by
    simp [pathEntries, Graph.mapBelow, hpaths]
  obtain ⟨es', hes', hu, rfl⟩ := (resolve_ok_iff d mediaType).mp h
  obtain rfl := Option.some.inj (hroot.symm.trans hes')
  refine ⟨?_, ?_, fun e hm => ⟨fun l hl => ?_, ?_⟩⟩
  · rw [endpoints_resolveEntries, he]
  · rw [filter_of_paths, he]
  · exact hu (.item (he.symm ▸ hm) hl)
  · exact Endpoint.pathEntry_accounted d.scope mediaType e

/-- Paths of every form: an item with a method, a malformed operation and another key, a reference
that leads nowhere, and no item at all. -/
def mixedPaths : Entries := [
  (.str "/pets", .map [(.str "Get", .map []), (.str "POST", .int 5),
    (.str "summary", .str "Pets")]),
  (.str "/lost", .map [(.str "$ref", .str "#/nowhere")]),
  (.int 7, .seq [])]

def pathsDocument : Document := .ofTree (.map [(.str "paths", .map mixedPaths)])

theorem mixed_paths_accounted : ∃ ir, resolve pathsDocument "application/json" = .ok ir ∧
    ir.endpoints.map (fun e => (e.method, e.path)) = [(.get, "/pets")] ∧
    (ir.diagnostics.filter (·.kind.isOfPaths)).map (fun x => (x.kind, x.subject)) =
      [(.endpoint, "POST /pets"), (.path, "/lost"), (.path, "7")] := by
  have hok : (resolve pathsDocument "application/json").toBool = true := by decide +kernel
  obtain ⟨ir, h⟩ := exists_of_toBool hok
  obtain ⟨he, hd, _⟩ :=
    @every_path_accounted pathsDocument "application/json" _ ir mixedPaths h rfl rfl
  exact ⟨ir, h, by rw [he]; decide +kernel, by rw [hd]; decide +kernel⟩

/-- An operation whose one parameter is an item of a list, by an index that is too long. -/
def longIndexOperation : Entries := [
  (.str "parameters", .seq [.map [(.str "$ref", .str Pointer.ninesReference)]])]

def longIndexItem : Entries := [(.str "get", .map longIndexOperation)]

def longIndexEntries : Entries := [(.str "openapi", .str "3.0.0"), (.str "x", .seq []),
  (.str "paths", .map [(.str "/pets", .map longIndexItem)])]

def longIndexDocument : Document := .ofTree (.map longIndexEntries)

theorem long_index_breaks_operation : (Endpoint.itemEntry longIndexDocument.scope
    "application/json" "/pets" .null (.str "get", .map longIndexOperation)).value = [] := by
  have hfollow : longIndexDocument.scope.follow
      (.map [(.str "$ref", .str Pointer.ninesReference)]) =
        .error (.limit (.read (Limit.digits + 1))) :=
    Scope.follow_broken rfl rfl (Pointer.resolve_nines rfl rfl rfl)
  have hbreaks : Endpoint.Breaks longIndexDocument.scope (Endpoint.subject "/pets" .get)
      longIndexOperation .null :=
    .target (Or.inr rfl) rfl (List.mem_singleton_self _) hfollow
  have haccounted := Endpoint.itemEntry_accounted longIndexDocument.scope "application/json"
    "/pets" .null (.str "get", .map longIndexOperation)
  exact (haccounted.broken .get _ ((Endpoint.spells_iff _ _).mpr (by decide +kernel)) rfl hbreaks).1

/-- The operation is a map under a method, yet it gives no endpoint. -/
theorem long_index_loses_endpoint : Endpoint.Spells (.str "get") .get ∧
    longIndexDocument.graph.isMap (.map longIndexOperation) = true ∧
    ∃ ir, resolve longIndexDocument "application/json" = .ok ir ∧ ir.endpoints = [] := by
  have hu : ¬ Unhandled longIndexDocument longIndexEntries := by
    rintro (h | ⟨h, _⟩ | ⟨he, _⟩ | ⟨he, h⟩ | ⟨he, h⟩ | h)
    · cases h
    · cases h
    · cases he
    · obtain rfl := List.mem_singleton.mp he
      cases h
    · obtain rfl := List.mem_singleton.mp he
      cases h
    · cases h
  refine ⟨(Endpoint.spells_iff _ _).mpr (by decide +kernel), rfl, _,
    (resolve_ok_iff _ _).mpr ⟨longIndexEntries, rfl, hu, rfl⟩, ?_⟩
  have hpaths : pathEntries longIndexDocument.graph longIndexEntries =
      [(.str "/pets", .map longIndexItem)] := rfl
  have hitem : longIndexDocument.graph.entries? (.map longIndexItem) = some longIndexItem := rfl
  rw [endpoints_resolveEntries, hpaths, List.flatMap_singleton, Endpoint.pathEntry_item rfl hitem,
    Report.value_showing, Report.value_gather, longIndexItem, List.flatMap_singleton]
  exact long_index_breaks_operation

theorem model_wellFormed (h : resolve d mediaType = .ok ir) {m : Model} (hm : m ∈ ir.models) :
    m.WellFormed := by
  obtain ⟨es, _, _, rfl⟩ := (resolve_ok_iff d mediaType).mp h
  rw [models_resolveEntries] at hm
  obtain ⟨e, _, hm⟩ := List.mem_flatMap.mp hm
  rw [Schema.modelEntry_eq, Report.value_showing] at hm
  exact (Schema.contribution_ensures d.graph e.1.text e.2).value m hm

theorem endpoint_wellFormed (h : resolve d mediaType = .ok ir) {ep : Endpoint}
    (hep : ep ∈ ir.endpoints) : ep.WellFormed := by
  obtain ⟨es, _, _, rfl⟩ := (resolve_ok_iff d mediaType).mp h
  rw [endpoints_resolveEntries] at hep
  obtain ⟨e, _, hep⟩ := List.mem_flatMap.mp hep
  exact (Endpoint.pathEntry_ensures e).value ep hep

/-- Whatever a document holds, what it resolves to is well-formed. -/
theorem resolved_wellFormed (h : resolve d mediaType = .ok ir) : ir.WellFormed :=
  ⟨fun _ hm => model_wellFormed h hm, fun _ hep => endpoint_wellFormed h hep⟩

def itemsOperation : Entries := [
  (.str "parameters", .seq [.map [(.str "name", .str "id"), (.str "in", .str "path"),
    (.str "schema", .map [(.str "type", .str "integer")])]]),
  (.str "responses", .map [(.str "200", .map [(.str "content", .map [(.str "application/json",
    .map [(.str "schema", .map [(.str "type", .str "array"),
      (.str "items", .map [(.str "$ref", .str "#/components/schemas/Item")])])])])])])]

def itemsDocument : Document := .ofTree (.map [
  (.str "paths", .map [(.str "/items/\x7bid\x7d", .map [(.str "get", .map itemsOperation)])])])

theorem items_wellFormed : ∃ ir, resolve itemsDocument "application/json" = .ok ir ∧
    ir.endpoints.flatMap (fun e => e.responses.map (fun r => r.2.type)) =
      [.listOf (.model "Item")] ∧ ir.WellFormed := by
  have h : resolve itemsDocument "application/json" = .ok _ := rfl
  exact ⟨_, h, by decide +kernel, resolved_wellFormed h⟩

end IR

end OpenApiIR
