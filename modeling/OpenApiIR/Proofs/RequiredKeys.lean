import OpenApiIR.Failure
import OpenApiIR.Load.Decode
import OpenApiIR.Proofs.Assembly
import OpenApiIR.Proofs.Form

/-! Which properties of a schema are required. The keys of properties and the members of a list of
required names are both rendered as texts, and a property is required where the texts meet. Main
statement: this, and what it does to the type. Texts, numbers and truth values count in the list;
dates and moments, which are keys as well, do not. -/

namespace OpenApiIR

/-- The scalars that count in a list of required names. -/
inductive Scalar.CountsAsName : Scalar → Prop where
  | str (s : String) : CountsAsName (.str s)
  | bool (b : Bool) : CountsAsName (.bool b)
  | int (i : Int) : CountsAsName (.int i)
  | float (x : Binary64) : CountsAsName (.float x)

namespace Schema

def Listed (items : List Value) (text : String) : Prop :=
  ∃ s : Scalar, .scalar s ∈ items ∧ s.CountsAsName ∧ s.text = text

structure PropertyOf (g : Graph) (items : List Value) (e : Scalar × Value) (p : Property) :
    Prop where
  name : p.name = e.1.text
  required : p.isRequired = true ↔ Listed items e.1.text
  own : e.1.CountsAsName → .scalar e.1 ∈ items → p.isRequired = true
  absent : (∀ s : Scalar, .scalar s ∈ items → s.text ≠ e.1.text) → p.isRequired = false
  nullable : p.type.nullable = false ↔ p.isRequired = true ∧ (typeOf g e.2).nullable = false

variable {g : Graph} {items : List Value} {v : Value} {text : String}

theorem requiredName?_eq_some_iff :
    requiredName? v = some text ↔ ∃ s : Scalar, v = .scalar s ∧ s.CountsAsName ∧ s.text = text := by
  constructor
  · intro h
    unfold requiredName? at h
    split at h
    · exact ⟨_, rfl, .str _, Option.some.inj h⟩
    · exact ⟨_, rfl, .bool _, Option.some.inj h⟩
    · exact ⟨_, rfl, .int _, Option.some.inj h⟩
    · exact ⟨_, rfl, .float _, Option.some.inj h⟩
    · cases h
  · rintro ⟨s, rfl, hs, rfl⟩
    cases hs <;> rfl

theorem mem_requiredNames : text ∈ items.filterMap requiredName? ↔ Listed items text := by
  simp only [List.mem_filterMap, requiredName?_eq_some_iff, Listed]
  constructor
  · rintro ⟨_, hv, s, rfl, hs, ht⟩
    exact ⟨s, hv, hs, ht⟩
  · rintro ⟨s, hv, hs, ht⟩
    exact ⟨_, hv, s, rfl, hs, ht⟩

theorem resolveProperty_of (g : Graph) (items : List Value) (e : Scalar × Value) :
    PropertyOf g items e (resolveProperty g e.1.text e.2
      ((items.filterMap requiredName?).contains e.1.text)) := by
  have hlisted : (items.filterMap requiredName?).contains e.1.text = true ↔
    Listed items e.1.text := by
    rw [List.contains_iff_mem, mem_requiredNames]
  constructor
  · rfl
  · exact hlisted
  · intro hs hmem
    exact hlisted.mpr ⟨e.1, hmem, hs, rfl⟩
  · intro hnone
    refine Bool.eq_false_iff.mpr fun h => ?_
    obtain ⟨s, hmem, _, htext⟩ := hlisted.mp h
    exact hnone s hmem htext
  · simp [resolveProperty, and_comm]

variable {es ps : Entries} {fragment : Value}

/-- A schema with properties and a list of required names gives a model, if its names can be
written, with one property for each entry that is a map. It is required exactly where the list has a
text, a number or a truth value that is rendered like its key, and not nullable exactly where it is
required and its own fragment is not. -/
theorem required_keys_iff (name : String) (he : g.entries? fragment = some es)
    (hps : g.entries? (es.field "properties") = some ps)
    (hitems : g.items? (es.field "required") = some items) (hw : Writable g fragment ps) :
    ∃ r, resolveModel g name fragment = .ok (some r) ∧ ¬ r.Halts ∧
      List.Forall₂ (PropertyOf g items) (ps.filter fun e => g.isMap e.2) r.value.properties := by
  have hview := Graph.items?_eq_some_iff.mp hitems
  obtain ⟨names, hr, hkeys⟩ | ⟨before, l, hl⟩ :=
    names_written ps he (Or.inr ⟨items, hview⟩)
  · have hmodel := resolveModel_object name he (.declared (Graph.entries?_eq_some_iff.mp hps)) hr
    refine ⟨_, hmodel, ?_, ?_⟩
    · rw [Report.halts_map, Report.halts_gather]
      rintro ⟨e, hm, l, hl⟩
      rw [halt?_propertyEntry, hkeys e hm] at hl
      cases hl
    · have hnames : names = items.filterMap requiredName? := by
        simp only [requiredNames, hview] at hr
        split at hr
        · cases hr
        · exact (Except.ok.inj hr).symm
      rw [Report.value_map, value_properties, List.forall₂_map_right_iff, List.forall₂_same, hnames]
      exact fun e _ => resolveProperty_of g items e
  · exact absurd hl (hw before l)

/-- Keys of four kinds. The fragment under the text is nullable by itself. -/
def switchProperties : Entries := [
  (.int 200, .map [(.str "type", .str "string")]),
    (.bool true, .map [(.str "type", .str "boolean")]),
  (.str "note", .map [(.str "type", .str "string"), (.str "nullable", .bool true)]),
  (.float (.infinite false), .map [(.str "type", .str "number")])]

def switchRequired : List Value := [.int 200, .str "True", .str "note", .null]

def switchSchema : Value := .map [
  (.str "required", .seq switchRequired), (.str "properties", .map switchProperties)]

theorem switch_keys_required : ∃ r, resolveModel .empty "Switch" switchSchema = .ok (some r) ∧
    List.Forall₂ (PropertyOf .empty switchRequired) switchProperties r.value.properties ∧
    r.value.properties.map (fun p => (p.name, p.isRequired, p.type.display)) =
      [("200", true, "String"), ("True", true, "Bool"), ("note", true, "String?"),
        ("inf", false, "Double?")] := by
  have hentries : Graph.empty.entries? switchSchema = some _ := rfl
  have hw : Writable .empty switchSchema switchProperties := by
    have hkeys : ∀ e ∈ switchProperties, e.1.limit? = none := by
      decide +kernel
    have hlist : switchRequired.findSome? requiredLimit? = none := by
      decide +kernel
    exact writable_of hentries rfl hlist hkeys
  obtain ⟨r, hr, _, hproperties⟩ := required_keys_iff "Switch" hentries rfl rfl hw
  have hnames : (resolveModel .empty "Switch" switchSchema).toOption.map (fun found =>
      (found.map (·.value.properties.map fun p => (p.name, p.isRequired, p.type.display)))) = some
        (some [("200", true, "String"), ("True", true, "Bool"), ("note", true, "String?"),
          ("inf", false, "Double?")]) := by
    decide +kernel
  rw [hr] at hnames
  exact ⟨r, hr, hproperties, Option.some.inj (Option.some.inj hnames)⟩

def datedText : String := "required: [2024-01-31]\nproperties:\n 2024-01-31:\n  type: string"

def datedRequired : List Value := [.scalar (.date ⟨2024, 1, 31⟩)]

def datedSchema : Value := .map [
  (.str "required", .seq datedRequired),
  (.str "properties", .map [(.date ⟨2024, 1, 31⟩, .map [(.str "type", .str "string")])])]

/-- The property is not required, although its key stands in the list. -/
theorem dated_key_not_required : Yaml.read 900 datedText = .ok (.ofTree datedSchema) ∧
    .scalar (.date ⟨2024, 1, 31⟩) ∈ datedRequired ∧
    ∃ r, resolveModel (Document.ofTree datedSchema).graph "Log" datedSchema = .ok (some r) ∧
      r.value.properties.map (fun p => (p.name, p.isRequired, p.type.display)) =
        [("2024-01-31", false, "String?")] := by
  refine ⟨by decide +kernel, List.mem_singleton_self _, _, rfl, ?_⟩
  decide +kernel

end Schema

end OpenApiIR
