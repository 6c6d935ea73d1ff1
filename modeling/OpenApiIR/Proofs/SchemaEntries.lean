import Mathlib.Data.List.Basic
import OpenApiIR.Proofs.Report
import OpenApiIR.Proofs.WellFormed
import OpenApiIR.Schema.Model

/-! What the component schemas contribute. Every entry gives one model, or nothing, or one
diagnostic, and inside a model every property gives one property or one diagnostic. -/

namespace OpenApiIR

def EntryKind.isOfSchemas : EntryKind → Bool
  | .model | .property => true
  | _ => false

namespace Schema

/-- The properties of an object-like schema: those it declares, or none where only its type tells.
-/
inductive PropertiesOf (g : Graph) (es : Entries) : Entries → Prop where
  | declared {ps : Entries} : g.view (es.field "properties") = .map ps → PropertiesOf g es ps
  | absent : g.view (es.field "properties") = .null → es.field "type" = .str "object" →
      PropertiesOf g es []

def RequiredReadable (g : Graph) (es : Entries) : Prop :=
  g.view (es.field "required") = .null ∨ ∃ items, g.view (es.field "required") = .seq items

def PropertiesReadable (g : Graph) (es : Entries) : Prop :=
  g.view (es.field "properties") = .null ∨ ∃ ps, g.view (es.field "properties") = .map ps

/-- An object-like schema that can be read, and its properties. -/
def IsObject (g : Graph) (fragment : Value) (ps : Entries) : Prop :=
  ∃ es, g.entries? fragment = some es ∧ PropertiesOf g es ps ∧ RequiredReadable g es

/-- A schema of another form, which no model stands for. Its `required` is not looked at. -/
def IsPlain (g : Graph) (fragment : Value) : Prop :=
  ∃ es, g.entries? fragment = some es ∧ es.field "type" ≠ .str "object" ∧
    g.view (es.field "properties") = .null

def IsMalformed (g : Graph) (fragment : Value) : Prop :=
  g.isMap fragment = false ∨ ∃ es, g.entries? fragment = some es ∧ ¬ IsPlain g fragment ∧
    (¬ PropertiesReadable g es ∨ ¬ RequiredReadable g es)

/-- The limit that a name of an object-like schema meets when it is written: a required name, or the
name of the property that comes after `before`. -/
inductive NameLimit (g : Graph) (fragment : Value) (ps : Entries) : (before : Entries) →
    Limit → Prop
    where
  | required {es : Entries} {l : Limit} : g.entries? fragment = some es →
      requiredNames g es = .error (.limit l) → NameLimit g fragment ps [] l
  | property {es before after : Entries} {names : List String} {e : Scalar × Value} {l : Limit} :
      g.entries? fragment = some es → requiredNames g es = .ok names →
      ps = before ++ e :: after → (∀ x ∈ before, x.1.limit? = none) → e.1.limit? = some l →
      NameLimit g fragment ps before l

def Writable (g : Graph) (fragment : Value) (ps : Entries) : Prop :=
  ∀ before l, ¬ NameLimit g fragment ps before l

/-- What an entry of the component schemas contributes, given its rendered name and its fragment.
The graph only tells what the links inside the fragment stand for. -/
def contribution (g : Graph) (name : String) (fragment : Value) : Report (List Model) :=
  modelEntry g (.str name, fragment)

def brokenProperties (g : Graph) (name : String) (ps : Entries) : List (EntryKind × String) :=
  (ps.filter fun e => !g.isMap e.2).map fun e => (.property, name ++ "." ++ e.1.text)

/-- The forms of a fragment, each with what it contributes. An object-like schema with a name that
cannot be written gives no model, but the properties before that name are told of. -/
structure Accounted (g : Graph) (name : String) (fragment : Value) (r : Report (List Model)) :
    Prop where
  object : ∀ ps, IsObject g fragment ps → Writable g fragment ps → ∃ m, r.value = [m] ∧
    m.name = name ∧
    m.properties.map (·.name) = (ps.filter fun e => g.isMap e.2).map (·.1.text) ∧
    r.trace.diagnostics.map (fun x => (x.kind, x.subject)) = brokenProperties g name ps ∧
    m.properties.length + r.trace.diagnostics.length = ps.length
  unwritable : ∀ ps before l, IsObject g fragment ps → NameLimit g fragment ps before l →
    r.value = [] ∧ ∃ ds, r.trace.diagnostics = ds ++ [⟨.model, name, .limit l⟩] ∧
      ds.map (fun x => (x.kind, x.subject)) = brokenProperties g name before
  plain : IsPlain g fragment → r.value = [] ∧ r.trace.diagnostics = []
  malformed : IsMalformed g fragment →
    r.value = [] ∧ ∃ p, r.trace.diagnostics = [⟨.model, name, p⟩]
  covered : (∃ ps, IsObject g fragment ps) ∨ IsPlain g fragment ∨ IsMalformed g fragment

variable {g : Graph} {es : Entries} {fragment : Value}

theorem propertiesOf?_some {ps : Entries} (h : PropertiesOf g es ps) :
    propertiesOf? g es = .ok (some ps) := by
  cases h with
  | declared h => simp [propertiesOf?, h]
  | absent h ht => simp [propertiesOf?, h, (hasType_iff es "object").mpr ht]

theorem propertiesOf?_none (h : g.view (es.field "properties") = .null)
    (ht : es.field "type" ≠ .str "object") : propertiesOf? g es = .ok none := by
  have : hasType es "object" = false := by
    rw [Bool.eq_false_iff, ne_eq, hasType_iff]; exact ht
  simp [propertiesOf?, h, this]

theorem propertiesOf?_unreadable (h : ¬ PropertiesReadable g es) :
    ∃ p, propertiesOf? g es = .error p := by
  unfold PropertiesReadable at h
  unfold propertiesOf?
  split <;> simp_all

theorem requiredNames_readable (h : RequiredReadable g es) :
    (∃ names, requiredNames g es = .ok names) ∨ ∃ l, requiredNames g es = .error (.limit l) := by
  unfold requiredNames
  rcases h with h | ⟨items, h⟩
  · exact Or.inl ⟨[], by rw [h]⟩
  · rw [h]
    dsimp only
    cases items.findSome? requiredLimit? with
    | none => exact Or.inl ⟨_, rfl⟩
    | some l => exact Or.inr ⟨l, rfl⟩

theorem requiredNames_unreadable (h : ¬ RequiredReadable g es) :
    ∃ p, requiredNames g es = .error p := by
  unfold RequiredReadable at h
  unfold requiredNames
  split <;> simp_all

theorem resolveModel_not_map (name : String) (h : g.isMap fragment = false) :
    resolveModel g name fragment = .error (.notObject "schema" (g.kindName fragment)) := by
  simp [resolveModel, Graph.isMap_eq_false_iff.mp h]

theorem resolveModel_plain (name : String) (h : IsPlain g fragment) :
    resolveModel g name fragment = .ok none := by
  obtain ⟨es, he, ht, hp⟩ := h
  simp [resolveModel, he, propertiesOf?_none hp ht, bind, Except.bind, pure, Except.pure]

/-- Readable properties of a schema that is not plain are there, if only by its type. -/
theorem PropertiesReadable.of_not_plain (h : PropertiesReadable g es)
    (he : g.entries? fragment = some es) (hn : ¬ IsPlain g fragment) :
    ∃ ps, PropertiesOf g es ps := by
  rcases h with h | ⟨ps, h⟩
  · refine ⟨[], .absent h ?_⟩
    by_contra ht
    exact hn ⟨es, he, ht, h⟩
  · exact ⟨ps, .declared h⟩

theorem resolveModel_unreadable (name : String) (he : g.entries? fragment = some es)
    (hn : ¬ IsPlain g fragment) (h : ¬ PropertiesReadable g es ∨ ¬ RequiredReadable g es) :
    ∃ p, resolveModel g name fragment = .error p := by
  -- `properties` is read before `required`, so its fault is the one that is told.
  by_cases hp : PropertiesReadable g es
  · obtain ⟨p, hr⟩ := requiredNames_unreadable (h.resolve_left (not_not_intro hp))
    obtain ⟨ps, hps⟩ := hp.of_not_plain he hn
    exact ⟨p, by simp [resolveModel, he, propertiesOf?_some hps, hr, bind, Except.bind]⟩
  · obtain ⟨p, hp⟩ := propertiesOf?_unreadable hp
    exact ⟨p, by simp [resolveModel, he, hp, bind, Except.bind]⟩

theorem resolveModel_object (name : String) {ps : Entries} {names : List String}
    (he : g.entries? fragment = some es) (hp : PropertiesOf g es ps)
    (hr : requiredNames g es = .ok names) :
    resolveModel g name fragment = .ok (some
      ((Report.gather (propertyEntry g name names) ps).map
        fun props => ⟨name, props, (es.field "description").asText⟩)) := by
  simp [resolveModel, he, propertiesOf?_some hp, hr, bind, Except.bind, pure, Except.pure]

theorem resolveModel_limit (name : String) {ps : Entries} {l : Limit}
    (he : g.entries? fragment = some es) (hp : PropertiesOf g es ps)
    (hr : requiredNames g es = .error (.limit l)) :
    resolveModel g name fragment = .error (.limit l) := by
  simp [resolveModel, he, propertiesOf?_some hp, hr, bind, Except.bind]

@[simp] theorem halt?_propertyEntry (g : Graph) (model : String) (required : List String)
    (e : Scalar × Value) : (propertyEntry g model required e).trace.halt? = e.1.limit? := by
  unfold propertyEntry
  rw [Report.halt?_showing]
  split <;> simp

theorem value_properties (g : Graph) (model : String) (required : List String) (ps : Entries) :
    (Report.gather (propertyEntry g model required) ps).value =
      (ps.filter fun e => g.isMap e.2).map fun e =>
        resolveProperty g e.1.text e.2 (required.contains e.1.text) := by
  rw [Report.value_gather]
  induction ps with
  | nil => rfl
  | cons e rest ih =>
    rw [List.flatMap_cons, ih]
    cases h : g.isMap e.2 <;> simp [propertyEntry, h]

theorem diagnostics_properties (g : Graph) (model : String) (required : List String)
    (ps : Entries) :
    (Report.gather (propertyEntry g model required) ps).trace.diagnostics =
      (ps.filter fun e => !g.isMap e.2).map fun e =>
        ⟨.property, model ++ "." ++ e.1.text, .notObject "property schema" (g.kindName e.2)⟩ := by
  rw [Report.diagnostics_gather]
  induction ps with
  | nil => rfl
  | cons e rest ih =>
    rw [List.flatMap_cons, ih]
    cases h : g.isMap e.2 <;> simp [propertyEntry, h]

theorem modelEntry_eq (g : Graph) (e : Scalar × Value) :
    modelEntry g e = .showing e.1.limit? (contribution g e.1.text e.2) := rfl

theorem contribution_eq (g : Graph) (name : String) (fragment : Value) :
    contribution g name fragment = match resolveModel g name fragment with
      | .error problem => .noting .model name problem []
      | .ok none => .silent []
      | .ok (some model) => model.guarded .model name := rfl

theorem contribution_object (name : String) {ps : Entries} {names : List String}
    (he : g.entries? fragment = some es) (hp : PropertiesOf g es ps)
    (hr : requiredNames g es = .ok names) :
    contribution g name fragment =
      ((Report.gather (propertyEntry g name names) ps).map
        fun props => ⟨name, props, (es.field "description").asText⟩).guarded .model name := by
  rw [contribution_eq, resolveModel_object name he hp hr]

theorem contribution_limit (name : String) {ps : Entries} {l : Limit}
    (he : g.entries? fragment = some es) (hp : PropertiesOf g es ps)
    (hr : requiredNames g es = .error (.limit l)) :
    contribution g name fragment = .noting .model name (.limit l) [] := by
  rw [contribution_eq, resolveModel_limit name he hp hr]

theorem contribution_plain (name : String) (h : IsPlain g fragment) :
    contribution g name fragment = .silent [] := by
  rw [contribution_eq, resolveModel_plain name h]

theorem contribution_malformed (name : String) (h : IsMalformed g fragment) :
    ∃ p, contribution g name fragment = .noting .model name p [] := by
  rcases h with h | ⟨es, he, hn, h⟩
  · exact ⟨_, by rw [contribution_eq, resolveModel_not_map name h]⟩
  · obtain ⟨p, hp⟩ := resolveModel_unreadable name he hn h
    exact ⟨p, by rw [contribution_eq, hp]⟩

/-- The forms leave no fragment out: what can be read is object-like or plain. -/
theorem forms_cover (g : Graph) (fragment : Value) :
    (∃ ps, IsObject g fragment ps) ∨ IsPlain g fragment ∨ IsMalformed g fragment := by
  by_cases hn : IsPlain g fragment
  · exact Or.inr (Or.inl hn)
  by_cases hm : g.isMap fragment = false
  · exact Or.inr (Or.inr (Or.inl hm))
  obtain ⟨es, he⟩ := Graph.isMap_iff.mp (Bool.not_eq_false _ ▸ hm)
  by_cases h : ¬ PropertiesReadable g es ∨ ¬ RequiredReadable g es
  · exact Or.inr (Or.inr (Or.inr ⟨es, he, hn, h⟩))
  obtain ⟨hp, hr⟩ := not_or.mp h
  obtain ⟨ps, hps⟩ := (not_not.mp hp).of_not_plain he hn
  exact Or.inl ⟨ps, es, he, hps, not_not.mp hr⟩

/-- The names of an object-like schema can all be written, or one of them is the first that cannot.
-/
theorem names_written (ps : Entries) (he : g.entries? fragment = some es)
    (hr : RequiredReadable g es) :
    (∃ names, requiredNames g es = .ok names ∧ ∀ e ∈ ps, e.1.limit? = none) ∨
      ∃ before l, NameLimit g fragment ps before l := by
  rcases requiredNames_readable hr with ⟨names, hn⟩ | ⟨l, hl⟩
  · cases hps : ps.findSome? (·.1.limit?) with
    | none => exact Or.inl ⟨names, hn, List.findSome?_eq_none_iff.mp hps⟩
    | some l =>
      obtain ⟨before, e, after, hsplit, hl, hbefore⟩ := List.findSome?_eq_some_iff.mp hps
      exact Or.inr ⟨before, l, .property he hn hsplit hbefore hl⟩
  · exact Or.inr ⟨[], l, .required he hl⟩

theorem writable_of {ps : Entries} {items : List Value} (he : g.entries? fragment = some es)
    (hitems : g.items? (es.field "required") = some items)
    (hlist : items.findSome? requiredLimit? = none) (hkeys : ∀ e ∈ ps, e.1.limit? = none) :
    Writable g fragment ps := by
  intro before l h
  cases h with
  | required he' hr =>
    obtain rfl := Option.some.inj (he.symm.trans he')
    simp [requiredNames, Graph.items?_eq_some_iff.mp hitems, hlist] at hr
  | property _ _ hsplit _ hl =>
    have hm := hkeys _ (hsplit ▸ List.mem_append_right _ List.mem_cons_self)
    exact absurd (hm.symm.trans hl) (by simp)

theorem contribution_written (name : String) {ps : Entries} {names : List String}
    (he : g.entries? fragment = some es) (hp : PropertiesOf g es ps)
    (hr : requiredNames g es = .ok names) (hps : ∀ e ∈ ps, e.1.limit? = none) :
    contribution g name fragment =
      (Report.gather (propertyEntry g name names) ps).map
        fun props => [⟨name, props, (es.field "description").asText⟩] := by
  have hnone : (Report.gather (propertyEntry g name names) ps).trace.halt? = none := by
    rw [Report.halt?_gather]
    exact List.findSome?_eq_none_iff.mpr fun e he => by rw [halt?_propertyEntry, hps e he]
  rw [contribution_object name he hp hr, Report.guarded_map, Report.guarded_of_none hnone]
  rfl

/-- Before the first name that cannot be written the properties are told of as in any model. -/
theorem contribution_unwritten (name : String) {ps before : Entries} {l : Limit}
    (hp : ∀ es, g.entries? fragment = some es → PropertiesOf g es ps)
    (h : NameLimit g fragment ps before l) :
    (contribution g name fragment).value = [] ∧
      (contribution g name fragment).trace.diagnostics =
        (Report.gather (propertyEntry g name []) before).trace.diagnostics ++
          [⟨.model, name, .limit l⟩] := by
  cases h with
  | required he hl =>
    rw [contribution_limit name he (hp _ he) hl]
    exact ⟨rfl, rfl⟩
  | @property es _ after names e _ he hr hsplit hbefore hl =>
    have hhalt : (propertyEntry g name names e).trace.halt? = some l := by
      rw [halt?_propertyEntry, hl]
    have hnone : ∀ x ∈ before, (propertyEntry g name names x).trace.halt? = none :=
      fun x hx => by rw [halt?_propertyEntry, hbefore x hx]
    have hreached := Report.reached_each hnone hhalt after
    have hempty : (propertyEntry g name names e).trace.reached = .empty := by
      unfold propertyEntry
      rw [hl]
      rfl
    have hsome : (Report.gather (propertyEntry g name names) ps).trace.halt? = some l := by
      rw [Report.halt?_gather, hsplit, List.findSome?_append,
        List.findSome?_eq_none_iff.mpr hnone, List.findSome?_cons, hhalt]
      rfl
    rw [contribution_object name he (hp _ he) hr, Report.guarded_map, Report.guarded_of_some hsome]
    refine ⟨rfl, ?_⟩
    have hds := diagnostics_properties g name names before
    rw [Report.diagnostics_gather] at hds
    rw [Report.trace_map, hsplit, Report.gather, Report.trace_map, hreached, hempty,
      diagnostics_properties]
    simp [hds]

theorem contribution_accounted (g : Graph) (name : String) (fragment : Value) :
    Accounted g name fragment (contribution g name fragment) where
  object ps := by
    rintro ⟨es, he, hp, hr⟩ hwritable
    rcases names_written ps he hr with ⟨names, hn, hps⟩ | ⟨before, l, hlimit⟩
    · rw [contribution_written name he hp hn hps]
      refine ⟨_, rfl, rfl, ?_, ?_, ?_⟩
      · rw [value_properties, List.map_map]
        rfl
      · rw [Report.trace_map, diagnostics_properties, List.map_map]
        rfl
      · have hlen := List.length_eq_length_filter_add (l := ps) fun e => g.isMap e.2
        simp only [Report.trace_map, value_properties, diagnostics_properties, List.length_map]
        omega
    · exact absurd hlimit (hwritable before l)
  unwritable ps before l := by
    rintro ⟨es, he, hp, _⟩ hlimit
    have hunique : ∀ es', g.entries? fragment = some es' → PropertiesOf g es' ps := by
      intro es' he'
      rwa [← Option.some.inj (he.symm.trans he')]
    obtain ⟨hvalue, hds⟩ := contribution_unwritten name hunique hlimit
    refine ⟨hvalue, _, hds, ?_⟩
    rw [diagnostics_properties, List.map_map]
    rfl
  plain h := by rw [contribution_plain name h]; exact ⟨rfl, rfl⟩
  malformed h := by
    obtain ⟨p, h⟩ := contribution_malformed name h
    rw [h]
    exact ⟨rfl, p, rfl⟩
  covered := forms_cover g fragment

theorem resolveProperty_wellFormed (g : Graph) (name : String) (fragment : Value)
    (isRequired : Bool) : (resolveProperty g name fragment isRequired).WellFormed := by
  refine ⟨(typeOf_wellFormed g fragment).orNullable _, fun h => ?_⟩
  simp only [resolveProperty] at h
  simp [resolveProperty, h]

theorem propertyEntry_ensures (g : Graph) (model : String) (required : List String)
    (e : Scalar × Value) : (propertyEntry g model required e).Ensures
      (fun ps => ∀ p ∈ ps, p.WellFormed) (fun x => x.kind.isOfSchemas = true) := by
  unfold propertyEntry
  refine Report.Ensures.showing ?_ _
  split
  · refine Report.ensures_silent fun p hp => ?_
    rw [List.mem_singleton.mp hp]
    exact resolveProperty_wellFormed ..
  · exact Report.ensures_noting (by simp) rfl

theorem contribution_ensures (g : Graph) (name : String) (fragment : Value) :
    (contribution g name fragment).Ensures (fun ms => ∀ m ∈ ms, m.WellFormed)
      (fun x => x.kind.isOfSchemas = true) := by
  rcases forms_cover g fragment with ⟨ps, es, he, hp, hr⟩ | h | h
  · rcases requiredNames_readable hr with ⟨names, hn⟩ | ⟨l, hl⟩
    · rw [contribution_object name he hp hn]
      refine Report.Ensures.guarded (P := Model.WellFormed) ?_ fun _ => rfl
      exact (Report.ensures_gather fun e _ => propertyEntry_ensures g name names e).map
        fun props hprops => hprops
    · rw [contribution_limit name he hp hl]
      exact Report.ensures_noting (by simp) rfl
  · rw [contribution_plain name h]
    exact Report.ensures_silent (by simp)
  · obtain ⟨p, h⟩ := contribution_malformed name h
    rw [h]
    exact Report.ensures_noting (by simp) rfl

end Schema

end OpenApiIR
