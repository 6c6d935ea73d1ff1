import Mathlib.Data.List.Perm.Basic
import OpenApiIR.Proofs.Override

/-! What becomes of the entries of parameter lists. An entry gives one parameter or one diagnostic,
unless it is shared and overridden, when it gives nothing. Main statement: this, in numbers, and
when all that is overridden is overridden by name. Identities take what is no text for empty, so
that a parameter without a name is overridden, too, by any other that has none. -/

namespace OpenApiIR

open Report

/-- A value that stands for a list: it is one, or nothing is there. -/
inductive Graph.Lists (g : Graph) : Value → List Value → Prop where
  | absent {v : Value} : g.view v = .null → Lists g v []
  | items {v : Value} {items : List Value} : g.items? v = some items → Lists g v items

theorem Location.name_ne_empty (location : Location) : location.name ≠ "" := by
  cases location <;> decide

namespace Parameter

def target? (sc : Scope) (v : Value) : Option Entries := (followToMap sc "parameter" v).toOption

def outcome (sc : Scope) (v : Value) : Except Problem Parameter := do
  let es ← followToMap sc "parameter" v
  resolve sc.graph es

def SameIdentity (es es' : Entries) : Prop := identity es = identity es'

/-- One name, not empty, and one location, all given as texts. -/
def SameNames (es es' : Entries) : Prop :=
  (∃ name ∈ (es.field "name").str?, name ≠ "" ∧ (es'.field "name").str? = some name) ∧
    ∃ place ∈ (es.field "in").str?, (es'.field "in").str? = some place

/-- An entry that stands for a map like one that an own entry stands for. -/
def ReplacedBy (alike : Entries → Entries → Prop) (sc : Scope) (own : List Value)
    (v : Value) : Prop :=
  ∃ es ∈ target? sc v, ∃ es' ∈ own.filterMap (target? sc), alike es es'

/-- A shared entry that merging leaves out. -/
def Overridden : Scope → List Value → Value → Prop := ReplacedBy SameIdentity

def OverriddenByName : Scope → List Value → Value → Prop := ReplacedBy SameNames

variable {sc : Scope} {subject : String} {shared v : Value} {above own : List Value}
  {es es' : Entries}
  {p : Parameter}

instance : Decidable (SameIdentity es es') := inferInstanceAs (Decidable (_ = _))

instance : Decidable (SameNames es es') := inferInstanceAs (Decidable ((∃ _ ∈ _, _) ∧ ∃ _ ∈ _, _))

instance : Decidable (Overridden sc own v) := inferInstanceAs (Decidable (∃ _ ∈ _, ∃ _ ∈ _, _))

instance : Decidable (OverriddenByName sc own v) :=
  inferInstanceAs (Decidable (∃ _ ∈ _, ∃ _ ∈ _, _))

/-- The shared entries that are left after merging, and the operation's own. -/
def remaining (sc : Scope) (above own : List Value) : List Value :=
  above.filter (fun v => ¬ Overridden sc own v) ++ own

def diagnosis {α : Type} (subject : String) : Except Problem α → List Diagnostic
  | .ok _ => []
  | .error problem => [⟨.parameter, subject, problem⟩]

/-- How the entries of two lists are accounted for by the parameters of an endpoint and the
diagnostics beside them. -/
structure EntriesAccounted (sc : Scope) (subject : String) (above own : List Value)
    (parameters : List Parameter) (noted : List Diagnostic) : Prop where
  resolved : parameters = (remaining sc above own).filterMap fun v => (outcome sc v).toOption
  diagnosed : noted.Perm ((remaining sc above own).flatMap fun v =>
    diagnosis subject (outcome sc v))
  count : parameters.length + noted.length + (above.filter (Overridden sc own ·)).length =
    above.length + own.length
  byName : ∀ v ∈ above, Overridden sc own v → ∀ p, outcome sc v = .ok p → OverriddenByName sc own v

/-! One entry. -/

theorem toOption_outcome (sc : Scope) (v : Value) : (outcome sc v).toOption =
    (target? sc v).bind fun es => (resolve sc.graph es).toOption := by
  unfold outcome target?
  cases followToMap sc "parameter" v <;> rfl

theorem failureOf_outcome (sc : Scope) (subject : String) (v : Value) :
    failureOf .parameter subject (outcome sc v) =
      failureOf .parameter subject (followToMap sc "parameter" v) ++
        (target? sc v).toList.flatMap fun es =>
        failureOf .parameter subject (resolve sc.graph es) := by
  unfold outcome target?
  cases followToMap sc "parameter" v with
  | error problem => rfl
  | ok es => exact (List.append_nil _).symm

theorem length_outcomes (sc : Scope) (subject : String) (vs : List Value) :
    (vs.filterMap fun v => (outcome sc v).toOption).length +
      (vs.flatMap fun v => diagnosis subject (outcome sc v)).length = vs.length := by
  induction vs with
  | nil => rfl
  | cons v rest ih =>
    rw [List.flatMap_cons, List.length_append, List.length_cons, ← ih]
    cases h : outcome sc v with
    | ok p =>
      rw [List.filterMap_cons_some (by rw [h]; rfl), List.length_cons, diagnosis, List.length_nil]
      omega
    | error problem =>
      rw [List.filterMap_cons_none (by rw [h]; rfl), diagnosis, List.length_singleton]
      omega

theorem overridden_iff (h : target? sc v = some es) : Overridden sc own v ↔
    identity es ∈ (own.filterMap (target? sc)).map identity := by
  simp only [Overridden, ReplacedBy, SameIdentity, h, Option.mem_def, Option.some.injEq,
    exists_eq_left',
    List.mem_map, eq_comm]

theorem followed_of_overridden (h : Overridden sc own v) :
    failureOf .parameter subject (followToMap sc "parameter" v) = [] := by
  obtain ⟨es, hes, _⟩ := h
  rw [toOption_eq_some_iff.mp hes]
  rfl

/-! When identities are names. -/

theorem sameIdentity_of_sameNames (h : SameNames es es') : SameIdentity es es' := by
  obtain ⟨⟨name, hname, _, hname'⟩, place, hplace, hplace'⟩ := h
  unfold SameIdentity identity
  rw [Value.asText_of_str? hname, Value.asText_of_str? hname', Value.asText_of_str? hplace,
    Value.asText_of_str? hplace']

theorem sameNames_of_resolve (hp : resolve sc.graph es = .ok p) (h : SameIdentity es es') :
    SameNames es es' := by
  obtain ⟨hname, hplace, hne⟩ := texts_of_resolve hp
  obtain ⟨hname', hplace'⟩ := Prod.mk.inj ((identity_of_resolve hp).symm.trans h)
  refine ⟨⟨p.name, hname, hne, ?_⟩, p.location.name, hplace, ?_⟩
  · rw [hname'] at hne ⊢
    exact Value.str?_of_asText hne
  · have hne' := Location.name_ne_empty p.location
    rw [hplace'] at hne' ⊢
    exact Value.str?_of_asText hne'

theorem overridden_of_byName (h : OverriddenByName sc own v) : Overridden sc own v := by
  obtain ⟨es, hes, es', hes', hsame⟩ := h
  exact ⟨es, hes, es', hes', sameIdentity_of_sameNames hsame⟩

theorem byName_of_outcome (h : Overridden sc own v) (hp : outcome sc v = .ok p) :
    OverriddenByName sc own v := by
  obtain ⟨es, hes, es', hes', hsame⟩ := h
  rw [outcome, toOption_eq_some_iff.mp hes] at hp
  exact ⟨es, hes, es', hes', sameNames_of_resolve hp hsame⟩

/-! Two lists. -/

theorem usable_of_lists (h : sc.graph.Lists shared above) :
    usable sc shared = above.filterMap (target? sc) := by
  unfold usable
  cases h with
  | absent hnull =>
    have hnone : sc.graph.items? shared = none := by
      unfold Graph.items?
      rw [hnull]
    rw [hnone]
    rfl
  | items hitems =>
    rw [hitems]
    rfl

theorem listFailures_of_lists (h : sc.graph.Lists shared above) :
    listFailures sc subject shared =
      above.flatMap fun v => refusalOf .parameter subject (followToMap sc "parameter" v) := by
  unfold listFailures
  cases h with
  | absent hnull => rw [hnull]; rfl
  | items hitems => rw [Graph.items?_eq_some_iff.mp hitems]

theorem merge_targets (sc : Scope) (above own : List Value) :
    merge (above.filterMap (target? sc)) (own.filterMap (target? sc)) =
      (remaining sc above own).filterMap (target? sc) := by
  rw [merge_eq, remaining, List.filterMap_append, survivors, List.filter_filterMap,
    List.filterMap_filter]
  congr 2
  funext v
  cases h : target? sc v with
  | none => simp
  | some es =>
    rw [Option.filter_some]
    exact if_congr (by simp only [overridden_iff h]) rfl rfl

theorem followed_remaining (sc : Scope) (subject : String) (above own : List Value) :
    (above.flatMap fun v => failureOf .parameter subject (followToMap sc "parameter" v)) ++
      (own.flatMap fun v => failureOf .parameter subject (followToMap sc "parameter" v)) =
    (remaining sc above own).flatMap fun v =>
      failureOf .parameter subject (followToMap sc "parameter" v) := by
  rw [remaining, List.flatMap_append]
  congr 1
  induction above with
  | nil => rfl
  | cons v rest ih =>
    rw [List.flatMap_cons, ih]
    -- An overridden entry leads to a map, so that it has no failure here to be left out.
    by_cases h : Overridden sc own v
    · rw [List.filter_cons_of_neg (by simpa using h), followed_of_overridden h, List.nil_append]
    · rw [List.filter_cons_of_pos (by simpa using h), List.flatMap_cons]

/-- A failure that meets no limit is told of by any handler. -/
theorem refusalOf_eq_failureOf {α : Type} {kind : EntryKind} {step : Except Problem α}
    (h : ∀ l, .error l ∉ refusalOf kind subject step) :
    refusalOf kind subject step = failureOf kind subject step := by
  unfold refusalOf at h ⊢
  split
  · exact absurd List.mem_cons_self (h _)
  · rfl

theorem mergedFailure_eq_failureOf {g : Graph} (h : ∀ l, .error l ∉ mergedFailure g subject es) :
    mergedFailure g subject es = failureOf .parameter subject (resolve g es) := by
  unfold mergedFailure at h ⊢
  split
  · rename_i hr
    rw [hr] at h
    exact absurd List.mem_cons_self (h .depth)
  · rfl

theorem failures_perm (hshared : sc.graph.Lists shared above) (hown : sc.graph.Lists v own)
    (h : ∀ l, .error l ∉ failures sc subject shared v) :
    (failures sc subject shared v).Perm
      ((remaining sc above own).flatMap fun v => failureOf .parameter subject (outcome sc v)) := by
  rw [failures, listFailures_of_lists hshared, listFailures_of_lists hown, usable_of_lists hshared,
    usable_of_lists hown, merge_targets] at h ⊢
  simp only [List.mem_append, List.mem_flatMap, not_or, not_exists, not_and] at h
  -- Without a limit every failure is told of where it arises.
  rw [List.flatMap_congr fun v hv => refusalOf_eq_failureOf fun l => (h l).1.1 v hv,
    List.flatMap_congr fun v hv => refusalOf_eq_failureOf fun l => (h l).1.2 v hv,
    List.flatMap_congr fun es hes => mergedFailure_eq_failureOf fun l => (h l).2 es hes,
    followed_remaining]
  simp only [failureOf_outcome, List.filterMap_eq_flatMap_toList, List.flatMap_assoc]
  exact List.flatMap_append_perm ..

theorem length_filter_eq_iff {α : Type} {p q : α → Prop} [DecidablePred p] [DecidablePred q]
    (hpq : ∀ a, p a → q a) (l : List α) :
    (l.filter (p ·)).length = (l.filter (q ·)).length ↔ ∀ a ∈ l, q a → p a := by
  have hsub : (l.filter (p ·)).Sublist (l.filter (q ·)) :=
    List.monotone_filter_right l fun a ha => by simpa using hpq a (by simpa using ha)
  constructor
  · intro hlength a ha hq
    have hmem : a ∈ l.filter (q ·) := List.mem_filter.mpr ⟨ha, by simpa using hq⟩
    rw [← hsub.eq_of_length hlength] at hmem
    simpa using (List.mem_filter.mp hmem).2
  · intro h
    have heq : l.filter (p ·) = l.filter (q ·) :=
      List.filter_congr fun a ha => decide_eq_decide.mpr ⟨hpq a, h a ha⟩
    rw [heq]

end Parameter

/-! The diagnostics of an operation by their kinds. -/

def told (is : List Incident) : List Diagnostic := is.filterMap Except.toOption

theorem mem_told {is : List Incident} {x : Diagnostic} : x ∈ told is ↔ .ok x ∈ is := by
  simp [told, toOption_eq_some_iff]

theorem kind_of_failureOf {α : Type} {kind : EntryKind} {subject : String} {r : Except Problem α}
    {x : Diagnostic} (h : .ok x ∈ failureOf kind subject r) : x.kind = kind := by
  cases r with
  | ok a => cases h
  | error problem => rw [Except.ok.inj (List.mem_singleton.mp h)]

theorem ok_not_mem_nameLimit {key : Scalar} {x : Diagnostic} : .ok x ∉ nameLimit key := by
  simp [nameLimit]

variable {sc : Scope} {mediaType part : String} {operation shared v : Value}
  {above own : List Value} {es : Entries} {x : Diagnostic}

theorem Parameter.kind_of_failures (hshared : sc.graph.Lists shared above)
    (hown : sc.graph.Lists v own) (hquiet : ∀ l, .error l ∉ failures sc part shared v)
    (h : .ok x ∈ failures sc part shared v) : x.kind = .parameter := by
  obtain ⟨_, _, hx⟩ := List.mem_flatMap.mp ((failures_perm hshared hown hquiet).mem_iff.mp h)
  exact kind_of_failureOf hx

theorem Response.kind_of_failures (h : .ok x ∈ failures sc mediaType part v) :
    x.kind = .endpoint := by
  unfold failures at h
  split at h
  · cases h
  · obtain ⟨_, _, hx⟩ := List.mem_flatMap.mp h
    rcases List.mem_append.mp hx with hx | hx
    · exact absurd hx ok_not_mem_nameLimit
    · exact kind_of_failureOf hx
  · rw [Except.ok.inj (List.mem_singleton.mp h)]

namespace Endpoint

def ofParameters (ds : List Diagnostic) : List Diagnostic := ds.filter fun x => x.kind = .parameter

theorem ofParameters_append (ds ds' : List Diagnostic) :
    ofParameters (ds ++ ds') = ofParameters ds ++ ofParameters ds' := List.filter_append ..

theorem ofParameters_eq_self (is : List Incident) (h : ∀ x, .ok x ∈ is → x.kind = .parameter) :
    ofParameters (told is) = told is :=
  List.filter_eq_self.mpr fun x hx => decide_eq_true (h x (mem_told.mp hx))

theorem ofParameters_eq_nil (is : List Incident) (h : ∀ x, .ok x ∈ is → x.kind = .endpoint) :
    ofParameters (told is) = [] :=
  List.filter_eq_nil_iff.mpr fun x hx => by simp [h x (mem_told.mp hx)]

/-- An operation tells of its parameters, and only of them, under their kind. -/
theorem ofParameters_partFailures (hshared : sc.graph.Lists shared above)
    (hown : sc.graph.Lists (es.field "parameters") own)
    (hquiet : ∀ l, .error l ∉ Parameter.failures sc part shared (es.field "parameters")) :
    ofParameters (told (partFailures sc mediaType part shared es)) =
      told (Parameter.failures sc part shared (es.field "parameters")) := by
  rw [partFailures, told, List.filterMap_append, List.filterMap_append, ofParameters_append,
    ofParameters_append, ← told, ← told, ← told,
    ofParameters_eq_self _ fun x => Parameter.kind_of_failures hshared hown hquiet,
    ofParameters_eq_nil (RequestBody.failures ..) fun x => kind_of_failureOf,
    ofParameters_eq_nil (Response.failures ..) fun x => Response.kind_of_failures,
    List.append_nil, List.append_nil]

end Endpoint

namespace Parameter

theorem told_failureOf {α : Type} (r : Except Problem α) :
    told (failureOf .parameter part r) = diagnosis part r := by
  cases r <;> rfl

theorem entriesAccounted {parameters : List Parameter} {noted : List Diagnostic}
    (hresolved : parameters = (remaining sc above own).filterMap fun v => (outcome sc v).toOption)
    (hnoted : noted.Perm ((remaining sc above own).flatMap fun v =>
      diagnosis part (outcome sc v))) :
    EntriesAccounted sc part above own parameters noted := by
  refine ⟨hresolved, hnoted, ?_, fun v _ hv p hp => byName_of_outcome hv hp⟩
  have hall := length_outcomes sc part (remaining sc above own)
  rw [← hresolved, ← hnoted.length_eq, remaining, List.length_append] at hall
  have hsplit := List.length_eq_length_filter_add (l := above) (Overridden sc own ·)
  simp only [decide_not] at hall
  omega

theorem told_failures_perm (hshared : sc.graph.Lists shared above) (hown : sc.graph.Lists v own)
    (h : ∀ l, .error l ∉ failures sc part shared v) :
    (told (failures sc part shared v)).Perm
      ((remaining sc above own).flatMap fun v => diagnosis part (outcome sc v)) := by
  have hdiagnosis : ((remaining sc above own).flatMap fun v => diagnosis part (outcome sc v)) =
      told ((remaining sc above own).flatMap fun v =>
        failureOf .parameter part (outcome sc v)) := by
    simp only [told, List.filterMap_flatMap]
    exact List.flatMap_congr fun v _ => (told_failureOf (outcome sc v)).symm
  rw [hdiagnosis]
  exact (failures_perm hshared hown h).filterMap _

/-- Every entry of the two lists is accounted for, and those that give nothing are the shared ones
that are overridden, as long as no limit is met in the operation. The numbers add up with the
entries overridden by name alone exactly where no others are overridden. -/
theorem dropped_parameters_accounted_iff (mediaType path : String) (m : Method)
    (h : sc.graph.entries? operation = some es) (hshared : sc.graph.Lists shared above)
    (hown : sc.graph.Lists (es.field "parameters") own) :
    ∃ r, Endpoint.resolve sc mediaType path m operation shared = .ok r ∧ (¬ r.Halts →
      EntriesAccounted sc (Endpoint.subject path m) above own r.value.parameters
        (Endpoint.ofParameters r.trace.diagnostics) ∧
      (r.value.parameters.length + (Endpoint.ofParameters r.trace.diagnostics).length +
          (above.filter (OverriddenByName sc own ·)).length = above.length + own.length ↔
        ∀ v ∈ above, Overridden sc own v → OverriddenByName sc own v)) := by
  obtain ⟨r, hr, hparameters⟩ := Endpoint.parameters_resolve mediaType path m shared h
  obtain ⟨r', hr', hnotes⟩ := Endpoint.resolve_notes sc mediaType path m shared h
  obtain rfl := Except.ok.inj (hr.symm.trans hr')
  refine ⟨r, hr, fun hhalts => ?_⟩
  have hquiet : ∀ l, .error l ∉
      Parameter.failures sc (Endpoint.subject path m) shared (es.field "parameters") := by
    intro l hl
    have hmem : .error l ∈
        Endpoint.partFailures sc mediaType (Endpoint.subject path m) shared es :=
      List.mem_append_left _ (List.mem_append_left _ hl)
    rw [hnotes.eq_of_not_halts hhalts] at hmem
    simp at hmem
  have haccounted : EntriesAccounted sc (Endpoint.subject path m) above own r.value.parameters
      (Endpoint.ofParameters r.trace.diagnostics) := by
    apply entriesAccounted
    · rw [hparameters, usable_of_lists hshared, usable_of_lists hown, merge_targets,
        List.filterMap_filterMap]
      simp only [toOption_outcome]
    · rw [hnotes.diagnostics, ← told, Endpoint.ofParameters_partFailures hshared hown hquiet]
      exact told_failures_perm hshared hown hquiet
  have hcount := haccounted.count
  refine ⟨haccounted, ?_⟩
  rw [← length_filter_eq_iff (fun v => overridden_of_byName) above]
  omega

def namedEntry (name : String) : Value := .map [(.str "name", .str name), (.str "in", .str "query"),
  (.str "schema", .map [(.str "type", .str "string")])]

def namelessEntry : Value := .map [(.str "in", .str "query"),
  (.str "schema", .map [(.str "type", .str "string")])]

def brokenEntry : Value := .map [(.str "$ref", .str "#/components/parameters/Page")]

def limitAbove : List Value := [namedEntry "limit", namelessEntry, brokenEntry]

def limitOwn : List Value := [namedEntry "limit", .str "page"]

def limitOperation : Entries := [(.str "parameters", .seq limitOwn)]

/-- Of five entries one is overridden, one gives a parameter, and three are told of. -/
theorem limit_overridden : ∃ r, Endpoint.resolve noDocument "application/json" "/pets" .get
      (.map limitOperation) (.seq limitAbove) = .ok r ∧
    EntriesAccounted noDocument "GET /pets" limitAbove limitOwn r.value.parameters
      (Endpoint.ofParameters r.trace.diagnostics) ∧
    r.value.parameters.length + (Endpoint.ofParameters r.trace.diagnostics).length +
      (limitAbove.filter (OverriddenByName noDocument limitOwn ·)).length = 5 := by
  have hoperation : noDocument.graph.entries? (.map limitOperation) = some limitOperation := rfl
  have hshared : noDocument.graph.Lists (.seq limitAbove) limitAbove := .items rfl
  have hown : noDocument.graph.Lists (limitOperation.field "parameters") limitOwn := .items rfl
  obtain ⟨r, hr, haccounted⟩ := dropped_parameters_accounted_iff "application/json" "/pets" .get
    hoperation hshared hown
  have hlimit : ((Endpoint.resolve noDocument "application/json" "/pets" .get (.map limitOperation)
      (.seq limitAbove)).toOption.bind fun r => r.trace.halt?) = none := by
    decide +kernel
  rw [hr] at hlimit
  obtain ⟨haccounted, hiff⟩ := haccounted (not_halts_iff.mpr hlimit)
  exact ⟨r, hr, haccounted, hiff.mpr (by decide +kernel)⟩

/-- A shared entry without a name gives nothing at all beside an own one that has none either. -/
theorem nameless_parameter_lost : ∃ r, Endpoint.resolve noDocument "application/json" "/a" .get
      (.map [(.str "parameters", .seq [namelessEntry])]) (.seq [namelessEntry]) = .ok r ∧
    r.value.parameters = [] ∧
    r.trace.diagnostics = [⟨.parameter, "GET /a", .parameterWithoutName⟩] ∧
    ¬ OverriddenByName noDocument [namelessEntry] namelessEntry := by
  refine ⟨_, rfl, ?_⟩
  decide +kernel

end Parameter

end OpenApiIR
