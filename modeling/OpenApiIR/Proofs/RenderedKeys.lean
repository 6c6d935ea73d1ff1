import Mathlib.Data.List.Dedup
import OpenApiIR.Load.Decode
import OpenApiIR.Proofs.Containment
import OpenApiIR.Proofs.Identity

/-! Models, properties and responses are known by the texts of their keys. The keys of a map are
different, yet two that are not both strings may have one text: the number 1 and the string "1" do.
Nothing is hidden or replaced exactly where this does not happen. -/

namespace OpenApiIR

namespace ResponseMap

theorem mem_codes_put {rs : ResponseMap} {k code : String} {r : Response} :
    k ∈ (put rs code r).map (·.1) ↔ k ∈ rs.map (·.1) ∨ k = code := by
  rw [codes_put]
  by_cases hc : code ∈ rs.map (·.1)
  · rw [if_pos hc]
    constructor
    · exact Or.inl
    · rintro (h | rfl)
      · exact h
      · exact hc
  · rw [if_neg hc, List.mem_append, List.mem_singleton]

theorem nodup_codes_put {rs : ResponseMap} {code : String} {r : Response}
    (h : (rs.map (·.1)).Nodup) : ((put rs code r).map (·.1)).Nodup := by
  rw [codes_put]
  by_cases hc : code ∈ rs.map (·.1)
  · rw [if_pos hc]
    exact h
  · rw [if_neg hc]
    exact List.concat_eq_append ▸ h.concat hc

theorem codes_ofPairs (rs : List (String × Response)) :
    ((ofPairs rs).map (·.1)).Nodup ∧ ∀ k, k ∈ (ofPairs rs).map (·.1) ↔ k ∈ rs.map (·.1) := by
  -- The map built so far has to vary for the induction on the pairs that are left.
  have go : ∀ (rs : List (String × Response)) (acc : ResponseMap), (acc.map (·.1)).Nodup →
      ((rs.foldl (fun m r => put m r.1 r.2) acc).map (·.1)).Nodup ∧
        ∀ k, k ∈ (rs.foldl (fun m r => put m r.1 r.2) acc).map (·.1) ↔
          k ∈ acc.map (·.1) ∨ k ∈ rs.map (·.1) := by
    intro rs
    induction rs with
    | nil =>
      intro acc hacc
      exact ⟨hacc, fun k => by simp⟩
    | cons r rest ih =>
      intro acc hacc
      obtain ⟨hnodup, hmem⟩ := ih (put acc r.1 r.2) (nodup_codes_put hacc)
      refine ⟨hnodup, fun k => ?_⟩
      rw [List.foldl_cons, hmem, mem_codes_put, List.map_cons, List.mem_cons, or_assoc]
  obtain ⟨hnodup, hmem⟩ := go rs [] List.nodup_nil
  refine ⟨hnodup, fun k => (hmem k).trans ?_⟩
  simp

/-- A map is shorter than the list it was made from as soon as two pairs have one code. -/
theorem length_ofPairs_iff (rs : List (String × Response)) :
    (ofPairs rs).length = rs.length ↔ (rs.map (·.1)).Nodup := by
  obtain ⟨hnodup, hmem⟩ := codes_ofPairs rs
  have hperm : ((ofPairs rs).map (·.1)).Perm (rs.map (·.1)).dedup := by
    refine (List.perm_ext_iff_of_nodup hnodup (List.nodup_dedup _)).mpr fun k => ?_
    rw [hmem, List.mem_dedup]
  have hlength : (ofPairs rs).length = (rs.map (·.1)).dedup.length := by
    simpa using hperm.length_eq
  rw [hlength, ← List.dedup_eq_self]
  constructor
  · intro h
    exact (List.dedup_sublist _).eq_of_length (by simpa using h)
  · intro h
    rw [h, List.length_map]

end ResponseMap

namespace Response

variable {sc : Scope} {mediaType subject : String} {responses : Value}

theorem resolveAll_not_map (h : sc.graph.entries? responses = none) :
    (resolveAll sc mediaType subject responses).value = [] := by
  unfold resolveAll
  split
  · rfl
  · rename_i es hv
    rw [Graph.entries?_eq_some_iff.mpr hv] at h
    cases h
  · rfl

theorem resolveAll_map {es : Entries} (h : sc.graph.entries? responses = some es) :
    (resolveAll sc mediaType subject responses).value =
      ResponseMap.ofPairs (es.map fun e => (entry sc mediaType subject e).value) := by
  simp only [resolveAll, Graph.entries?_eq_some_iff.mp h, Report.value_map, Report.value_each]

theorem code_entry (e : Scalar × Value) : (entry sc mediaType subject e).value.1 = e.1.text := by
  unfold entry
  rw [Report.value_showing]
  split <;> rfl

theorem nodup_codes_resolveAll :
    ((resolveAll sc mediaType subject responses).value.map (·.1)).Nodup := by
  cases h : sc.graph.entries? responses with
  | none =>
    rw [resolveAll_not_map h]
    exact List.nodup_nil
  | some es =>
    rw [resolveAll_map h]
    exact (ResponseMap.codes_ofPairs _).1

/-- No response is lost exactly where their keys have different texts. -/
theorem length_resolveAll_iff (sc : Scope) (mediaType subject : String) (responses : Value) :
    (resolveAll sc mediaType subject responses).value.length =
        ((sc.graph.entries? responses).getD []).length ↔
      (Entries.texts ((sc.graph.entries? responses).getD [])).Nodup := by
  cases h : sc.graph.entries? responses with
  | none =>
    rw [resolveAll_not_map h]
    exact ⟨fun _ => List.nodup_nil, fun _ => rfl⟩
  | some es =>
    let pairs := es.map fun e => (entry sc mediaType subject e).value
    have htexts : pairs.map (·.1) = es.texts := by
      rw [List.map_map]
      exact List.map_congr_left fun e _ => code_entry e
    have hlength : pairs.length = es.length := List.length_map _
    rw [resolveAll_map h, Option.getD_some, ← htexts, ← hlength]
    exact ResponseMap.length_ofPairs_iff pairs

end Response

namespace Schema

variable {g : Graph}

/-- A schema that gives a model: an object-like one, each of whose names can be written. -/
def GivesModel (g : Graph) (fragment : Value) : Prop :=
  ∃ ps, IsObject g fragment ps ∧ Writable g fragment ps

theorem value_modelEntry (e : Scalar × Value) :
    (GivesModel g e.2 ∧ ∃ m, (modelEntry g e).value = [m] ∧ m.name = e.1.text ∧
      ∃ ps, IsObject g e.2 ps ∧
        m.properties.map (·.name) = Entries.texts (ps.filter fun p => g.isMap p.2)) ∨
    ¬ GivesModel g e.2 ∧ (modelEntry g e).value = [] := by
  have hacc := contribution_accounted g e.1.text e.2
  have hvalue : (modelEntry g e).value = (contribution g e.1.text e.2).value := by
    rw [modelEntry_eq, Report.value_showing]
  rw [hvalue]
  rcases em (GivesModel g e.2) with ⟨ps, hps, hw⟩ | hnone
  · obtain ⟨m, hv, hm, hproperties, _⟩ := hacc.object ps hps hw
    exact Or.inl ⟨⟨ps, hps, hw⟩, m, hv, hm, ps, hps, hproperties⟩
  · refine Or.inr ⟨hnone, ?_⟩
    rcases hacc.covered with ⟨ps, hps⟩ | hplain | hbad
    · have hw : ¬ Writable g e.2 ps := fun hw => hnone ⟨ps, hps, hw⟩
      simp only [Writable, not_forall, not_not] at hw
      obtain ⟨before, l, hl⟩ := hw
      exact (hacc.unwritable ps before l hps hl).1
    · exact (hacc.plain hplain).1
    · exact (hacc.malformed hbad).1

theorem mem_model_names {e : Scalar × Value} {name : String} :
    name ∈ (modelEntry g e).value.map (·.name) ↔ name = e.1.text ∧ GivesModel g e.2 := by
  rcases value_modelEntry (g := g) e with ⟨hgives, m, hv, hm, _⟩ | ⟨hnone, hv⟩
  · rw [hv, List.map_singleton, List.mem_singleton, hm]
    exact ⟨fun h => ⟨h, hgives⟩, And.left⟩
  · rw [hv]
    exact ⟨fun h => absurd h List.not_mem_nil, fun h => absurd h.2 hnone⟩

theorem nodup_model_names (e : Scalar × Value) : ((modelEntry g e).value.map (·.name)).Nodup := by
  rcases value_modelEntry (g := g) e with ⟨_, m, hv, _⟩ | ⟨_, hv⟩
  · rw [hv]
    exact List.nodup_singleton m.name
  · rw [hv]
    exact List.nodup_nil

theorem disjoint_model_names_iff {e e' : Scalar × Value} :
    List.Disjoint ((modelEntry g e).value.map (·.name)) ((modelEntry g e').value.map (·.name)) ↔
      (GivesModel g e.2 → GivesModel g e'.2 → e.1.text ≠ e'.1.text) := by
  constructor
  · intro h ho ho' htext
    exact h (mem_model_names.mpr ⟨rfl, ho⟩) (mem_model_names.mpr ⟨htext, ho'⟩)
  · intro h name hn hn'
    obtain ⟨he, ho⟩ := mem_model_names.mp hn
    obtain ⟨he', ho'⟩ := mem_model_names.mp hn'
    exact h ho ho' (he.symm.trans he')

/-- A model has the properties of its schema that are maps, under the texts of their keys. -/
theorem model_of_object {e : Scalar × Value} {m : Model} (h : m ∈ (modelEntry g e).value) :
    ∃ ps, IsObject g e.2 ps ∧ (modelEntry g e).value = [m] ∧
      m.properties.map (·.name) = Entries.texts (ps.filter fun p => g.isMap p.2) := by
  rcases value_modelEntry (g := g) e with ⟨_, m', hv, _, ps, hps, hproperties⟩ | ⟨_, hv⟩
  · obtain rfl := List.mem_singleton.mp (hv ▸ h)
    exact ⟨ps, hps, hv, hproperties⟩
  · rw [hv] at h
    cases h

end Schema

namespace IR

variable {d : Document} {es : Entries}

/-- The endpoint that an operation of the paths, given by its entries, resolves to, unless it is
broken off. -/
def IsFrom (d : Document) (mediaType : String) (es : Entries) (ep : Endpoint) (part : Entries) :
    Prop :=
  ∃ path m operation shared r, IsOperation d es path m operation shared ∧
    d.graph.entries? operation = some part ∧
    ¬ Endpoint.Breaks d.scope (Endpoint.subject path m) part shared ∧
    Endpoint.resolve d.scope mediaType path m operation shared = .ok r ∧ r.value = ep

theorem exists_isFrom {mediaType : String} {ep : Endpoint}
    (h : ep ∈ (resolveEntries d mediaType es).1.endpoints) :
    ∃ part, IsFrom d mediaType es ep part := by
  rw [endpoints_resolveEntries] at h
  obtain ⟨e, he, h⟩ := List.mem_flatMap.mp h
  obtain ⟨v, item, o, hf, hv, ho, h⟩ := Endpoint.mem_pathEntry h
  obtain ⟨m, part, r, hs, hpart, hb, hr, hep⟩ := Endpoint.mem_itemEntry h
  exact ⟨part, e.1.text, m, o.2, _, r, .intro he hf hv ho hs, hpart, hb, hr, hep⟩

theorem IsFrom.eq_resolveAll {mediaType : String} {ep : Endpoint} {part : Entries}
    (h : IsFrom d mediaType es ep part) : ∃ subject,
      ep.responses = (Response.resolveAll d.scope mediaType subject
        (part.field "responses")).value := by
  obtain ⟨path, m, operation, shared, r, _, hpart, _, hr, rfl⟩ := h
  have hgraph : d.scope.graph.entries? operation = some part := hpart
  simp only [Endpoint.resolve, hgraph] at hr
  obtain rfl := Except.ok.inj hr
  exact ⟨Endpoint.subject path m, rfl⟩

theorem IsFrom.responses {mediaType : String} {ep : Endpoint} {part : Entries}
    (h : IsFrom d mediaType es ep part) :
    ep.responses.length = (d.graph.mapBelow part "responses").length ↔
      (d.graph.mapBelow part "responses").texts.Nodup := by
  obtain ⟨subject, hresponses⟩ := h.eq_resolveAll
  rw [hresponses]
  exact Response.length_resolveAll_iff d.scope mediaType _ _

/-- Where rendered keys keep the parts of a resolved document apart: exactly where their texts
differ. -/
structure ApartByText (d : Document) (mediaType : String) (es : Entries) (ir : IR) : Prop where
  models : (ir.models.map (·.name)).Nodup ↔ (schemaEntries d.graph es).Pairwise fun e e' =>
    Schema.GivesModel d.graph e.2 → Schema.GivesModel d.graph e'.2 → e.1.text ≠ e'.1.text
  found : (ir.models.map (·.name)).Nodup → ∀ m ∈ ir.models, ir.model? m.name = some m
  properties : ∀ m ∈ ir.models, ∃ e ∈ schemaEntries d.graph es, ∃ ps,
    Schema.IsObject d.graph e.2 ps ∧ (Schema.modelEntry d.graph e).value = [m] ∧
      ((m.properties.map (·.name)).Nodup ↔
        (Entries.texts (ps.filter fun p => d.graph.isMap p.2)).Nodup)
  origin : ∀ ep ∈ ir.endpoints, ∃ part, IsFrom d mediaType es ep part
  responses : ∀ ep part, IsFrom d mediaType es ep part →
    (ep.responses.length = (d.graph.mapBelow part "responses").length ↔
      (d.graph.mapBelow part "responses").texts.Nodup)

/-- Models, properties and responses are told apart by rendered keys exactly where the texts of the
keys differ; no model is then hidden by another, and no response replaced. -/
theorem rendered_keys_apart_iff {mediaType : String} {ir : IR} (h : resolve d mediaType = .ok ir)
    (hroot : d.graph.entries? d.root = some es) : ApartByText d mediaType es ir := by
  obtain rfl := eq_of_resolve h hroot
  constructor
  · rw [models_resolveEntries, List.map_flatMap, List.nodup_flatMap]
    constructor
    · intro h
      exact h.2.imp fun hd => Schema.disjoint_model_names_iff.mp hd
    · intro h
      have hdisjoint := h.imp fun hd => (Schema.disjoint_model_names_iff (g := d.graph)).mpr hd
      exact ⟨fun e _ => Schema.nodup_model_names e, hdisjoint⟩
  · intro hnodup m hm
    exact find?_eq_self hnodup hm
  · intro m hm
    rw [models_resolveEntries] at hm
    obtain ⟨e, he, hm⟩ := List.mem_flatMap.mp hm
    obtain ⟨ps, hps, hvalue, hproperties⟩ := Schema.model_of_object hm
    exact ⟨e, he, ps, hps, hvalue, by rw [hproperties]⟩
  · intro ep hep
    exact exists_isFrom hep
  · intro ep part h
    exact h.responses

def numberedResponses : Entries := [(.int 200, .map []), (.str "default", .map [])]

def numberedDocument : Document := .ofTree (.map [
  (.str "components", .map [(.str "schemas", .map [(.int 1, .map [(.str "type", .str "object")]),
    (.str "2", .map [(.str "properties", .map [(.int 3, .map []), (.bool true, .map [])])])])]),
  (.str "paths", .map [(.int 7, .map [(.str "get",
    .map [(.str "responses", .map numberedResponses)])])])])

theorem numbered_keys_apart : ∃ ir, resolve numberedDocument "application/json" = .ok ir ∧
    ir.models.map (fun m => (m.name, m.properties.map (·.name))) =
      [("1", []), ("2", ["3", "True"])] ∧
    (∀ m ∈ ir.models, ir.model? m.name = some m) ∧
    ∀ ep ∈ ir.endpoints, ep.responses.length = numberedResponses.length := by
  have hparts : (resolve numberedDocument "application/json").toOption.map (fun ir =>
      (ir.models.map (fun m => (m.name, m.properties.map (·.name))),
        ir.endpoints.map (·.responses.length))) =
      some ([("1", []), ("2", ["3", "True"])], [numberedResponses.length]) := by
    decide +kernel
  obtain ⟨ir, h, hparts⟩ := exists_of_toOption hparts
  obtain ⟨hmodels, hlengths⟩ := Prod.mk.inj hparts
  have hapart := rendered_keys_apart_iff h rfl
  have hnames : ir.models.map (·.name) = ["1", "2"] := by
    simpa [List.map_map, Function.comp_def] using congrArg (List.map (·.1)) hmodels
  refine ⟨ir, h, hmodels, hapart.found (by rw [hnames]; decide), fun ep hep => ?_⟩
  have hlength := List.mem_map_of_mem (f := fun e : Endpoint => e.responses.length) hep
  rwa [hlengths, List.mem_singleton] at hlength

/-- Keys that YAML tells apart and that have one text: the numbers 1, 2 and 200 beside the strings.
-/
def mergedText : String :=
  "paths:\n /a:\n  get:\n   responses:\n    200: \x7b\x7d\n    '200': \x7b\x7d\n" ++
  "components:\n schemas:\n  1:\n   type: object\n  '1':\n   properties:\n" ++
  "    2: \x7b\x7d\n    '2': \x7b\x7d\n"

def mergedResponses : Entries := [(.int 200, .map []), (.str "200", .map [])]

def mergedDocument : Document := .ofTree (.map [
  (.str "paths", .map [(.str "/a", .map [(.str "get",
    .map [(.str "responses", .map mergedResponses)])])]),
  (.str "components", .map [(.str "schemas", .map [(.int 1, .map [(.str "type", .str "object")]),
    (.str "1", .map [(.str "properties", .map [(.int 2, .map []), (.str "2", .map [])])])])])])

/-- Two models of one name, of which one is never found, two properties of one name, and one
response for two. -/
theorem merged_keys : ∃ ir, Yaml.read 900 mergedText = .ok mergedDocument ∧
    resolve mergedDocument "application/json" = .ok ir ∧
    ir.models.map (fun m => (m.name, m.properties.map (·.name))) = [("1", []), ("1", ["2", "2"])] ∧
    (∃ m ∈ ir.models, ir.model? m.name ≠ some m) ∧
    ir.endpoints.map (fun e => e.responses.map (·.1)) = [["200"]] ∧
    mergedResponses.length = 2 := by
  have hread : Yaml.read 900 mergedText = .ok mergedDocument := by decide +kernel
  have hparts : (resolve mergedDocument "application/json").toOption.map (fun ir =>
      (ir.models.map (fun m => (m.name, m.properties.map (·.name))),
        decide (∃ m ∈ ir.models, ir.model? m.name ≠ some m),
        ir.endpoints.map (fun e => e.responses.map (·.1)))) =
      some ([("1", []), ("1", ["2", "2"])], true, [["200"]]) := by
    decide +kernel
  obtain ⟨ir, h, hparts⟩ := exists_of_toOption hparts
  obtain ⟨hmodels, hrest⟩ := Prod.mk.inj hparts
  obtain ⟨hhidden, hcodes⟩ := Prod.mk.inj hrest
  exact ⟨ir, hread, h, hmodels, of_decide_eq_true hhidden, hcodes, rfl⟩

end IR

end OpenApiIR
