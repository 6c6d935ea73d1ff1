import Mathlib.Data.List.Nodup
import OpenApiIR.Proofs.DiagnosticOrder
import OpenApiIR.Proofs.Form

/-! How the parameters of an operation override the shared ones. What is replaced is decided by
identities alone, so that lists of parameters, under merging, are a monoid in which repeating the
last list changes nothing. Main statement: this, which entries a merged list has under each
identity, and that no two parameters of an endpoint have one name and one location unless one of its
two lists repeats an identity. -/

namespace OpenApiIR

theorem toOption_eq_some_iff {ε α : Type} {r : Except ε α} {a : α} :
    r.toOption = some a ↔ r = .ok a := by
  cases r with
  | error e => exact ⟨nofun, nofun⟩
  | ok b =>
    exact ⟨fun h => congrArg Except.ok (Option.some.inj h),
      fun h => congrArg some (Except.ok.inj h)⟩

theorem Value.asText_of_str? {v : Value} {text : String} (h : v.str? = some text) :
    v.asText = text := by
  rw [Value.str?_eq_some_iff.mp h]
  rfl

theorem Value.str?_of_asText {v : Value} (h : v.asText ≠ "") : v.str? = some v.asText := by
  unfold Value.asText Value.str? at *
  split at h
  · rfl
  · exact absurd rfl h

theorem Location.name_of_ofName? {text : String} {location : Location}
    (h : ofName? text = some location) : location.name = text := by
  simpa using List.find?_some (p := fun l : Location => decide (l.name = text)) h

namespace Parameter

variable {a b c : List Entries} {es : Entries} {k : String × String}

/-- The shared parameters that no own one replaces. -/
def survivors (shared own : List Entries) : List Entries :=
  shared.filter fun es => identity es ∉ own.map identity

def ofIdentity (k : String × String) (list : List Entries) : List Entries :=
  list.filter fun es => identity es = k

/-- What overriding comes to: some of the shared parameters and after them all own ones, which stand
alone under each identity that they have. -/
structure Overrides (shared own merged : List Entries) : Prop where
  order : ∃ kept, kept.Sublist shared ∧ merged = kept ++ own
  replaced : ∀ k ∈ own.map identity, ofIdentity k merged = ofIdentity k own
  untouched : ∀ k ∉ own.map identity, ofIdentity k merged = ofIdentity k shared
  distinct : (shared.map identity).Nodup → (own.map identity).Nodup → (merged.map identity).Nodup

theorem merge_eq (a b : List Entries) : merge a b = survivors a b ++ b := by
  simp only [merge, survivors, List.contains_eq_mem, decide_not]

theorem survivors_sublist (a b : List Entries) : (survivors a b).Sublist a := List.filter_sublist

theorem survivors_nil (a : List Entries) : survivors a [] = a := by
  simp [survivors]

theorem survivors_self (a : List Entries) : survivors a a = [] := by
  refine List.filter_eq_nil_iff.mpr fun es hes => ?_
  simpa using ⟨es, hes, rfl⟩

theorem survivors_append (a b c : List Entries) :
    survivors (a ++ b) c = survivors a c ++ survivors b c := List.filter_append ..

theorem mem_survivors : es ∈ survivors a b ↔ es ∈ a ∧ identity es ∉ b.map identity := by
  simp only [survivors, List.mem_filter, decide_eq_true_eq]

theorem mem_identities_merge :
    k ∈ (merge a b).map identity ↔ k ∈ a.map identity ∨ k ∈ b.map identity := by
  rw [merge_eq, List.map_append, List.mem_append]
  constructor
  · rintro (h | h)
    · exact .inl (((survivors_sublist a b).map identity).subset h)
    · exact .inr h
  · rintro (h | h)
    · by_cases hb : k ∈ b.map identity
      · exact .inr hb
      · obtain ⟨es, hes, rfl⟩ := List.mem_map.mp h
        exact .inl (List.mem_map_of_mem (mem_survivors.mpr ⟨hes, hb⟩))
    · exact .inr h

/-- What a merged list replaces are first the identities of the one and then of the other. -/
theorem survivors_merge (a b c : List Entries) :
    survivors a (merge b c) = survivors (survivors a b) c := by
  unfold survivors
  rw [List.filter_filter]
  refine List.filter_congr fun es _ => ?_
  simp only [mem_identities_merge, not_or, Bool.decide_and, Bool.and_comm]

theorem survivors_survivors (a b : List Entries) : survivors (survivors a b) b = survivors a b := by
  refine List.filter_eq_self.mpr fun es hes => ?_
  exact decide_eq_true (mem_survivors.mp hes).2

theorem merge_assoc (a b c : List Entries) : merge a (merge b c) = merge (merge a b) c := by
  calc merge a (merge b c)
      = survivors (survivors a b) c ++ (survivors b c ++ c) := by
        rw [merge_eq a, survivors_merge, merge_eq b]
    _ = survivors (survivors a b ++ b) c ++ c := by
        rw [survivors_append, List.append_assoc]
    _ = merge (merge a b) c := by rw [merge_eq (merge a b), merge_eq a]

theorem nil_merge (a : List Entries) : merge [] a = a := rfl

theorem merge_nil (a : List Entries) : merge a [] = a := by
  rw [merge_eq, survivors_nil, List.append_nil]

theorem merge_repeated (a b : List Entries) : merge (merge a b) b = merge a b := by
  rw [merge_eq (merge a b), merge_eq a, survivors_append, survivors_survivors, survivors_self,
    List.append_nil]

theorem ofIdentity_eq_nil (h : k ∉ a.map identity) : ofIdentity k a = [] := by
  refine List.filter_eq_nil_iff.mpr fun es hes hk => h ?_
  rw [← of_decide_eq_true hk]
  exact List.mem_map_of_mem hes

theorem ofIdentity_survivors (h : k ∉ b.map identity) :
    ofIdentity k (survivors a b) = ofIdentity k a := by
  unfold ofIdentity survivors
  rw [List.filter_filter]
  refine List.filter_congr fun es _ => ?_
  by_cases hk : identity es = k
  · rw [hk, decide_eq_true h, Bool.and_true]
  · rw [decide_eq_false hk, Bool.false_and]

theorem not_mem_identities_survivors (h : k ∈ b.map identity) :
    k ∉ (survivors a b).map identity := by
  intro hk
  obtain ⟨es, hes, rfl⟩ := List.mem_map.mp hk
  exact (mem_survivors.mp hes).2 h

theorem merge_overrides (a b : List Entries) : Overrides a b (merge a b) := by
  have hsplit : ∀ k, ofIdentity k (merge a b) = ofIdentity k (survivors a b) ++ ofIdentity k b := by
    intro k
    rw [merge_eq]
    exact List.filter_append ..
  constructor
  · exact ⟨survivors a b, survivors_sublist a b, merge_eq a b⟩
  · intro k hk
    rw [hsplit, ofIdentity_eq_nil (not_mem_identities_survivors hk), List.nil_append]
  · intro k hk
    rw [hsplit, ofIdentity_survivors hk, ofIdentity_eq_nil hk, List.append_nil]
  · intro ha hb
    rw [merge_eq, List.map_append]
    have hkept := ha.sublist ((survivors_sublist a b).map identity)
    exact hkept.append hb fun k hk hb => not_mem_identities_survivors hb hk

/-! From the entries of the lists to the parameters of an endpoint. -/

def key (p : Parameter) : String × Location := (p.name, p.location)

variable {g : Graph} {p : Parameter}

/-- An entry that resolves has texts for its name and its location, which the parameter keeps. -/
theorem texts_of_resolve (h : resolve g es = .ok p) : (es.field "name").str? = some p.name ∧
    (es.field "in").str? = some p.location.name ∧ p.name ≠ "" := by
  unfold resolve at h
  dsimp only at h
  split at h
  · cases h
  rename_i hname
  split at h
  · split at h <;> cases h
  rename_i location hlocation
  split at h
  · obtain rfl := Except.ok.inj h
    obtain ⟨text, htext, hofName⟩ := Option.bind_eq_some_iff.mp hlocation
    rw [← Location.name_of_ofName? hofName] at htext
    exact ⟨Value.str?_of_asText hname, htext, hname⟩
  · cases h

theorem identity_of_resolve (h : resolve g es = .ok p) :
    identity es = (p.name, p.location.name) := by
  obtain ⟨hname, hlocation, _⟩ := texts_of_resolve h
  rw [identity, Value.asText_of_str? hname, Value.asText_of_str? hlocation]

theorem value_resolveAll (sc : Scope) (subject : String) (shared own : Value) :
    (resolveAll sc subject shared own).value =
      (merge (usable sc shared) (usable sc own)).filterMap fun es =>
      (resolve sc.graph es).toOption := by
  have hentry : ∀ es, (mergedEntry sc.graph subject es).value =
      (resolve sc.graph es).toOption.toList := by
    intro es
    unfold mergedEntry
    split <;> rename_i h <;> rw [h] <;> rfl
  simp only [resolveAll, Report.value_bind, Report.value_gather, value_targets, hentry,
    List.filterMap_eq_flatMap_toList]

theorem nodup_keys (h : (a.map identity).Nodup) :
    ((a.filterMap fun es => (resolve g es).toOption).map key).Nodup := by
  refine List.pairwise_map.mpr (List.pairwise_filterMap.mpr ?_)
  refine (List.pairwise_map.mp h).imp fun {es es'} hne p hp p' hp' hkey => hne ?_
  rw [identity_of_resolve (toOption_eq_some_iff.mp hp),
    identity_of_resolve (toOption_eq_some_iff.mp hp')]
  obtain ⟨hname, hlocation⟩ := Prod.mk.inj hkey
  rw [hname, hlocation]

end Parameter

namespace Endpoint

variable {sc : Scope} {operation : Value} {es : Entries}

/-- The parameters of an endpoint are those of the merged entries that resolve. -/
theorem parameters_resolve (mediaType path : String) (m : Method) (shared : Value)
    (h : sc.graph.entries? operation = some es) :
    ∃ r, resolve sc mediaType path m operation shared = .ok r ∧ r.value.parameters =
      (Parameter.merge (Parameter.usable sc shared)
        (Parameter.usable sc (es.field "parameters"))).filterMap fun es =>
          (Parameter.resolve sc.graph es).toOption := by
  refine ⟨_, by simp only [resolve, h]; rfl, ?_⟩
  exact Parameter.value_resolveAll sc (subject path m) shared (es.field "parameters")

end Endpoint

namespace Parameter

/-- Merging is an override monoid on lists of parameters, and endpoints are made of merged lists. -/
theorem override_monoid :
    (∀ a b c, merge a (merge b c) = merge (merge a b) c) ∧
    (∀ a, merge [] a = a ∧ merge a [] = a) ∧
    (∀ a b, merge (merge a b) b = merge a b) ∧
    (∀ a b, Overrides a b (merge a b)) ∧
    ∀ (sc : Scope) (mediaType path : String) (m : Method) (operation shared : Value) (es : Entries),
      sc.graph.entries? operation = some es →
      ((usable sc shared).map identity).Nodup →
      ((usable sc (es.field "parameters")).map identity).Nodup →
        ∃ r, Endpoint.resolve sc mediaType path m operation shared = .ok r ∧
          (r.value.parameters.map key).Nodup := by
  refine ⟨merge_assoc, fun a => ⟨nil_merge a, merge_nil a⟩, merge_repeated, merge_overrides, ?_⟩
  intro sc mediaType path m operation shared es hes hshared hown
  obtain ⟨r, hr, hparameters⟩ := Endpoint.parameters_resolve mediaType path m shared hes
  refine ⟨r, hr, ?_⟩
  rw [hparameters]
  exact nodup_keys ((merge_overrides _ _).distinct hshared hown)

def noDocument : Scope := ⟨none, .empty⟩

def pageEntry (place text : String) : Value := .map [(.str "name", .str "page"),
  (.str "in", .str place), (.str "description", .str text),
  (.str "schema", .map [(.str "type", .str "integer")])]

def sharedPages : Value := .seq [pageEntry "query" "shared", pageEntry "header" "shared"]

def pagedOperation : Entries := [(.str "parameters", .seq [pageEntry "query" "own"])]

theorem shared_pages_overridden : ∃ r,
    Endpoint.resolve noDocument "application/json" "/pets" .get (.map pagedOperation) sharedPages =
      .ok r ∧
    (r.value.parameters.map fun p => (p.key, p.description)) =
      [(("page", .header), "shared"), (("page", .query), "own")] ∧
    (r.value.parameters.map key).Nodup := by
  obtain ⟨_, _, _, _, hdistinct⟩ := override_monoid
  obtain ⟨r, hr, hnodup⟩ := hdistinct noDocument "application/json" "/pets" .get
    (.map pagedOperation) sharedPages pagedOperation rfl (by decide +kernel) (by decide +kernel)
  refine ⟨r, hr, ?_, hnodup⟩
  obtain rfl := Except.ok.inj hr
  decide +kernel

end Parameter

end OpenApiIR
