import OpenApiIR.Operation.Endpoint
import OpenApiIR.Proofs.Report
import OpenApiIR.Proofs.WellFormed

/-! What the paths contribute. A path that cannot be read gives one diagnostic. Any other gives, key
by key, one endpoint or one diagnostic for each operation, and nothing for the other keys. An
operation in which a limit is met that its parts do not handle gives no endpoint, but a diagnostic.
-/

namespace OpenApiIR

namespace Method

theorem key_injective {m n : Method} (h : m.key = n.key) : m = n := by
  cases m <;> cases n <;> first | rfl | exact absurd h (by decide +kernel)

theorem mem_all (m : Method) : m ∈ all := by
  cases m <;> decide

/-- The methods under texts that tell them apart: a text finds the one that has it. -/
theorem find?_eq_some_iff {f : Method → String} (hf : ∀ {m n}, f m = f n → m = n) {text : String}
    {m : Method} : all.find? (f · = text) = some m ↔ f m = text := by
  constructor
  · intro h
    exact of_decide_eq_true (List.find?_some (p := fun m => decide (f m = text)) h)
  · intro h
    cases hfind : all.find? (f · = text) with
    | none => exact absurd (decide_eq_true h) (List.find?_eq_none.mp hfind m (mem_all m))
    | some n =>
      have hn := of_decide_eq_true (List.find?_some (p := fun m => decide (f m = text)) hfind)
      rw [hf (hn.trans h.symm)]

theorem ofKey?_eq_some_iff (text : String) (m : Method) :
    ofKey? text = some m ↔ Text.lower text = Text.lower m.name := by
  rw [eq_comm (a := Text.lower text)]
  exact find?_eq_some_iff key_injective

end Method

def EntryKind.isOfPaths : EntryKind → Bool
  | .path | .endpoint | .parameter => true
  | _ => false

namespace Endpoint

/-- Diagnostics about a part of one operation. -/
def IsOfOperation (path : String) (m : Method) (x : Diagnostic) : Prop :=
  (x.kind = .parameter ∨ x.kind = .endpoint) ∧ x.subject = m.name ++ " " ++ path

/-- A key of a path item that spells a method, in any case of letters. -/
def Spells (key : Scalar) (m : Method) : Prop :=
  ∃ text, key = .str text ∧ Text.lower text = Text.lower m.name

/-- A limit that breaks an operation off: no part of it handles one that is met in a reference of a
parameter, in the location of a parameter that is nested too deeply, or in a status code. -/
inductive Breaks (sc : Scope) (subject : String) (part : Entries) (shared : Value) : Prop where
  | target {list v : Value} {items : List Value} {l : Limit} :
      list = shared ∨ list = part.field "parameters" → sc.graph.items? list = some items →
      v ∈ items → sc.follow v = .error (.limit l) → Breaks sc subject part shared
  | parameter {raw : Entries} :
      raw ∈ Parameter.merge (Parameter.targets sc subject shared).value
        (Parameter.targets sc subject (part.field "parameters")).value →
      Parameter.resolve sc.graph raw = .error (.limit .depth) → Breaks sc subject part shared
  | status {responses : Entries} {r : Scalar × Value} {l : Limit} :
      sc.graph.entries? (part.field "responses") = some responses → r ∈ responses →
      r.1.limit? = some l → Breaks sc subject part shared

/-- One entry of a path item: an endpoint, a diagnostic, or nothing. -/
structure OperationAccounted (sc : Scope) (path : String) (shared : Value)
    (entry : Scalar × Value) (r : Report (List Endpoint)) : Prop where
  operation : ∀ m part, Spells entry.1 m → sc.graph.entries? entry.2 = some part →
    ¬ Breaks sc (subject path m) part shared →
    ∃ ep, r.value = [ep] ∧ ep.method = m ∧ ep.path = path ∧
      ∀ x ∈ r.trace.diagnostics, IsOfOperation path m x
  broken : ∀ m part, Spells entry.1 m → sc.graph.entries? entry.2 = some part →
    Breaks sc (subject path m) part shared →
    r.value = [] ∧ ∃ ds l, r.trace.diagnostics =
      ds ++ [⟨.endpoint, m.name ++ " " ++ path, .limit l⟩] ∧
      ∀ x ∈ ds, IsOfOperation path m x
  malformed : ∀ m, Spells entry.1 m → sc.graph.isMap entry.2 = false →
    r.value = [] ∧ ∃ p, r.trace.diagnostics = [⟨.endpoint, m.name ++ " " ++ path, p⟩]
  other : (∀ m, ¬ Spells entry.1 m) → r.value = [] ∧ r.trace.diagnostics = []

/-- One entry of the paths: a diagnostic, or the contributions of its item, key by key. -/
structure PathAccounted (sc : Scope) (mediaType : String) (entry : Scalar × Value)
    (r : Report (List Endpoint)) : Prop where
  unreadable : ∀ e, sc.follow entry.2 = .error e → e.isResolution = true →
    r.value = [] ∧ ∃ p, r.trace.diagnostics = [⟨.path, entry.1.text, p⟩]
  malformed : ∀ v, sc.follow entry.2 = .ok v → sc.graph.isMap v = false →
    r.value = [] ∧ ∃ p, r.trace.diagnostics = [⟨.path, entry.1.text, p⟩]
  item : ∀ v es, sc.follow entry.2 = .ok v → sc.graph.entries? v = some es →
    let part := itemEntry sc mediaType entry.1.text (es.field "parameters")
    r.value = es.flatMap (fun o => (part o).value) ∧
      r.trace.diagnostics = es.flatMap (fun o => (part o).trace.diagnostics) ∧
      ∀ o ∈ es, OperationAccounted sc entry.1.text (es.field "parameters") o (part o)

theorem spells_iff (text : String) (m : Method) :
    Spells (.str text) m ↔ Method.ofKey? text = some m := by
  simp [Spells, Method.ofKey?_eq_some_iff]

end Endpoint

open Report

variable {g : Graph} {sc : Scope} {mediaType path : String} {m : Method}

theorem Parameter.resolve_wellFormed {es : Entries} {p : Parameter} (h : resolve g es = .ok p) :
    p.WellFormed := by
  unfold resolve at h
  dsimp only at h
  split at h
  · cases h
  rename_i hn
  split at h
  · split at h <;> cases h
  split at h
  · obtain rfl := Except.ok.inj h
    refine ⟨(Schema.typeOf_wellFormed _ _).orNullable _, fun hr => ?_, hn, fun hl => ?_⟩
    · simp only at hr
      simp [hr]
    · simp only at hl
      simp [hl]
  · cases h

theorem Parameter.targets_ensures (entries : Value) :
    (targets sc (Endpoint.subject path m) entries).Ensures (fun _ => True)
      (Endpoint.IsOfOperation path m) := by
  unfold targets
  split
  · exact ensures_silent trivial
  · refine (ensures_gather (R := fun _ => True) fun v _ => ?_).weaken
      (fun _ _ => trivial) fun _ h => h
    unfold targetEntry
    split
    · exact ensures_refusing (by simp) ⟨Or.inl rfl, rfl⟩
    · split
      · exact ensures_silent (by simp)
      · exact ensures_noting (by simp) ⟨Or.inl rfl, rfl⟩
  · exact ensures_noting trivial ⟨Or.inl rfl, rfl⟩

theorem Parameter.resolveAll_ensures (shared own : Value) :
    (resolveAll sc (Endpoint.subject path m) shared own).Ensures (fun ps => ∀ p ∈ ps, p.WellFormed)
      (Endpoint.IsOfOperation path m) := by
  refine (targets_ensures shared).bind fun _ _ => (targets_ensures own).bind fun _ _ => ?_
  refine ensures_gather fun es _ => ?_
  unfold mergedEntry
  split
  · rename_i p h
    refine ensures_silent fun q hq => ?_
    rw [List.mem_singleton.mp hq]
    exact resolve_wellFormed h
  · exact ensures_halting (by simp)
  · exact ensures_noting (by simp) ⟨Or.inl rfl, rfl⟩

theorem RequestBody.resolve_wellFormed {body : Value} {b : RequestBody}
    (h : resolve sc mediaType body = .ok (some b)) : b.WellFormed := by
  unfold resolve at h
  split at h
  · cases h
  cases hf : followToMap sc "requestBody" body with
  | error p => simp [hf, bind, Except.bind] at h
  | ok es =>
    simp only [hf, bind, Except.bind, pure, Except.pure] at h
    split at h
    · cases h
    · split at h
      · cases h
      · obtain rfl := Option.some.inj (Except.ok.inj h)
        exact Schema.typeOf_wellFormed _ _

theorem RequestBody.resolveOrNote_ensures (body : Value) :
    (resolveOrNote sc mediaType (Endpoint.subject path m) body).Ensures
      (fun o => ∀ b, o = some b → b.WellFormed) (Endpoint.IsOfOperation path m) := by
  unfold resolveOrNote
  split
  · rename_i o h
    exact ensures_silent fun b hb => resolve_wellFormed (hb ▸ h)
  · exact ensures_noting (by simp) ⟨Or.inr rfl, rfl⟩

theorem Response.resolve_wellFormed {status : String} {response : Value} {r : Response}
    (h : resolve sc mediaType status response = .ok r) : r.WellFormed ∧ r.statusCode = status := by
  unfold resolve at h
  cases hf : followToMap sc "response" response with
  | error p => simp [hf, bind, Except.bind] at h
  | ok es =>
    simp only [hf, bind, Except.bind, pure, Except.pure] at h
    obtain rfl := Except.ok.inj h
    refine ⟨?_, rfl⟩
    unfold Response.WellFormed
    dsimp only
    split
    · exact Schema.typeOf_wellFormed _ _
    · exact TypeRef.fitsWithin_any

theorem Response.entry_ensures (e : Scalar × Value) :
    (entry sc mediaType (Endpoint.subject path m) e).Ensures
      (fun r => r.2.WellFormed ∧ r.1 = r.2.statusCode) (Endpoint.IsOfOperation path m) := by
  unfold entry
  refine Ensures.showing ?_ _
  split
  · rename_i r h
    have hr := resolve_wellFormed h
    exact ensures_silent ⟨hr.1, hr.2.symm⟩
  · exact ensures_noting ⟨Schema.typeOf_wellFormed _ _, rfl⟩ ⟨Or.inr rfl, rfl⟩

theorem ResponseMap.mem_put {rs : ResponseMap} {k : String} {r : Response} {e : String × Response}
    (h : e ∈ put rs k r) : e = (k, r) ∨ e ∈ rs := by
  induction rs with
  | nil => exact Or.inl (List.mem_singleton.mp h)
  | cons e' rest ih =>
    unfold put at h
    split at h
    · rcases List.mem_cons.mp h with h | h
      · exact Or.inl h
      · exact Or.inr (List.mem_cons_of_mem _ h)
    · rcases List.mem_cons.mp h with h | h
      · exact Or.inr (h ▸ List.mem_cons_self)
      · exact (ih h).imp_right (List.mem_cons_of_mem _)

theorem ResponseMap.mem_ofPairs {rs : List (String × Response)} {e : String × Response}
    (h : e ∈ ofPairs rs) : e ∈ rs := by
  -- The map built so far has to vary for the induction on the pairs that are left.
  have go : ∀ (rs : List (String × Response)) (acc : ResponseMap),
      e ∈ rs.foldl (fun m r => put m r.1 r.2) acc → e ∈ acc ∨ e ∈ rs := by
    intro rs
    induction rs with
    | nil => exact fun _ h => Or.inl h
    | cons r rest ih =>
      intro acc h
      rcases ih _ h with h | h
      · rcases mem_put h with rfl | h
        · exact Or.inr List.mem_cons_self
        · exact Or.inl h
      · exact Or.inr (List.mem_cons_of_mem _ h)
  exact (go rs [] h).resolve_left (by simp)

theorem Response.resolveAll_ensures (responses : Value) :
    (resolveAll sc mediaType (Endpoint.subject path m) responses).Ensures
      (fun rs => ∀ r ∈ rs, r.2.WellFormed ∧ r.1 = r.2.statusCode)
      (Endpoint.IsOfOperation path m) := by
  unfold resolveAll
  split
  · exact ensures_silent (by simp)
  · exact (ensures_each fun e _ => entry_ensures e).map fun rs hrs r hr =>
      hrs r (ResponseMap.mem_ofPairs hr)
  · exact ensures_noting (by simp) ⟨Or.inr rfl, rfl⟩

namespace Endpoint

variable {operation shared : Value}

theorem resolve_not_map (mediaType path : String) (m : Method) (shared : Value)
    (h : sc.graph.isMap operation = false) :
    resolve sc mediaType path m operation shared =
      .error (.notObject "operation" (sc.graph.kindName operation)) := by
  simp [resolve, Graph.isMap_eq_false_iff.mp h]

theorem diagnostics_resolve (mediaType path : String) (m : Method) (shared : Value) {es : Entries}
    (h : sc.graph.entries? operation = some es) :
    ∃ r, resolve sc mediaType path m operation shared = .ok r ∧ r.trace.diagnostics =
      (Parameter.resolveAll sc (subject path m) shared (es.field "parameters")).trace.diagnostics ++
      ((RequestBody.resolveOrNote sc mediaType (subject path m)
          (es.field "requestBody")).trace.diagnostics ++
        (Response.resolveAll sc mediaType (subject path m)
          (es.field "responses")).trace.diagnostics) :=
  ⟨_, by simp only [resolve, h]; rfl, by simp⟩

theorem resolve_ensures (mediaType path : String) (m : Method) (shared : Value)
    (h : sc.graph.isMap operation = true) :
    ∃ r, resolve sc mediaType path m operation shared = .ok r ∧
      r.Ensures (fun ep => ep.method = m ∧ ep.path = path ∧ ep.WellFormed)
        (IsOfOperation path m) := by
  obtain ⟨es, he⟩ := Graph.isMap_iff.mp h
  refine ⟨_, by simp only [resolve, he]; rfl, ?_⟩
  refine (Parameter.resolveAll_ensures _ _).bind fun ps hps => ?_
  refine (RequestBody.resolveOrNote_ensures _).bind fun body hbody => ?_
  refine (Response.resolveAll_ensures _).bind fun rs hrs => ?_
  exact ensures_silent ⟨rfl, rfl, hps, hbody, hrs⟩

theorem IsOfOperation.isOfPaths {x : Diagnostic} (h : IsOfOperation path m x) :
    x.kind.isOfPaths = true := by
  rcases h.1 with h | h <;> rw [h] <;> rfl

theorem halts_targetEntry {subject : String} {v : Value} :
    (Parameter.targetEntry sc subject v).Halts ↔ ∃ l, sc.follow v = .error (.limit l) := by
  unfold Parameter.targetEntry
  split
  · rename_i e he
    simp [he]
  · rename_i target ht
    split <;> simp [ht]

theorem halts_targets {subject : String} {list : Value} :
    (Parameter.targets sc subject list).Halts ↔
      ∃ items v l, sc.graph.items? list = some items ∧ v ∈ items ∧
        sc.follow v = .error (.limit l) := by
  unfold Parameter.targets Graph.items?
  split
  · rename_i hv
    simp [hv]
  · rename_i items hv
    simp [hv, halts_targetEntry]
  · rename_i hnull hseq
    constructor
    · intro h
      exact absurd h (not_halts_noting _ _ _ _)
    · rintro ⟨items, _, _, hi, _⟩
      exact absurd (Graph.items?_eq_some_iff.mp hi) (hseq items)

theorem halts_mergedEntry {subject : String} {raw : Entries} :
    (Parameter.mergedEntry sc.graph subject raw).Halts ↔
      Parameter.resolve sc.graph raw = .error (.limit .depth) := by
  unfold Parameter.mergedEntry
  split
  · rename_i h
    simp [h]
  · rename_i h
    simp [h]
  · rename_i p hp h
    simp only [not_halts_noting, h, false_iff]
    exact fun he => hp (Except.error.inj he)

theorem not_halts_resolveOrNote {subject : String} {body : Value} :
    ¬ (RequestBody.resolveOrNote sc mediaType subject body).Halts := by
  unfold RequestBody.resolveOrNote
  split <;> simp

theorem halts_responses {subject : String} {list : Value} :
    (Response.resolveAll sc mediaType subject list).Halts ↔
      ∃ responses r l, sc.graph.entries? list = some responses ∧ r ∈ responses ∧
        r.1.limit? = some l := by
  have hentry : ∀ r : Scalar × Value,
      (Response.entry sc mediaType subject r).Halts ↔ ∃ l, r.1.limit? = some l := by
    intro r
    unfold Response.entry
    dsimp only
    rw [halts_showing]
    split <;> simp
  unfold Response.resolveAll Graph.entries?
  split
  · rename_i hv
    simp [hv]
  · rename_i es hv
    simp [hv, hentry]
  · rename_i hnull hmap
    constructor
    · intro h
      exact absurd h (not_halts_noting _ _ _ _)
    · rintro ⟨responses, _, _, he, _⟩
      exact absurd (Graph.entries?_eq_some_iff.mp he) (hmap responses)

/-- An operation is broken off by the limits named above and by no other. -/
theorem halts_resolve {part : Entries} {r : Report Endpoint}
    (he : sc.graph.entries? operation = some part)
    (h : resolve sc mediaType path m operation shared = .ok r) :
    r.Halts ↔ Breaks sc (subject path m) part shared := by
  simp only [resolve, he] at h
  obtain rfl := Except.ok.inj h
  simp only [halts_bind, not_halts_resolveOrNote, not_halts_pure, or_false, false_or,
    Parameter.resolveAll, halts_targets, halts_gather, halts_mergedEntry, halts_responses]
  constructor
  · rintro ((⟨items, v, l, hi, hv, hf⟩ | ⟨items, v, l, hi, hv, hf⟩ | ⟨raw, hraw, hr⟩) |
      ⟨responses, r, l, hr, hm, hl⟩)
    · exact .target (Or.inl rfl) hi hv hf
    · exact .target (Or.inr rfl) hi hv hf
    · exact .parameter hraw hr
    · exact .status hr hm hl
  · rintro (⟨rfl | rfl, hi, hv, hf⟩ | ⟨hraw, hr⟩ | ⟨hr, hm, hl⟩)
    · exact Or.inl (Or.inl ⟨_, _, _, hi, hv, hf⟩)
    · exact Or.inl (Or.inr (Or.inl ⟨_, _, _, hi, hv, hf⟩))
    · exact Or.inl (Or.inr (Or.inr ⟨_, hraw, hr⟩))
    · exact Or.inr ⟨_, _, _, hr, hm, hl⟩

variable {o : Scalar × Value}

theorem itemEntry_spelled (mediaType path : String) (shared : Value) (hs : Spells o.1 m) :
    itemEntry sc mediaType path shared o =
      match resolve sc mediaType path m o.2 shared with
      | .ok endpoint => endpoint.guarded .endpoint (subject path m)
      | .error problem => .noting .endpoint (subject path m) problem [] := by
  obtain ⟨text, ht, _⟩ := id hs
  have hk := (spells_iff text m).mp (ht ▸ hs)
  cases hr : resolve sc mediaType path m o.2 shared <;> simp only [itemEntry, ht, hk, hr]

theorem itemEntry_map (mediaType path : String) (shared : Value) {part : Entries}
    (hs : Spells o.1 m) (h : sc.graph.entries? o.2 = some part) :
    ∃ r, resolve sc mediaType path m o.2 shared = .ok r ∧
      itemEntry sc mediaType path shared o = r.guarded .endpoint (subject path m) ∧
      r.Ensures (fun ep => ep.method = m ∧ ep.path = path ∧ ep.WellFormed)
        (IsOfOperation path m) := by
  have hmap := Graph.isMap_iff.mpr ⟨part, h⟩
  obtain ⟨r, hr, he⟩ := resolve_ensures mediaType path m shared hmap
  exact ⟨r, hr, by rw [itemEntry_spelled mediaType path shared hs, hr], he⟩

theorem itemEntry_operation (mediaType path : String) (shared : Value) {part : Entries}
    (hs : Spells o.1 m) (h : sc.graph.entries? o.2 = some part)
    (hb : ¬ Breaks sc (subject path m) part shared) :
    ∃ r : Report Endpoint, itemEntry sc mediaType path shared o = r.map ([·]) ∧
      resolve sc mediaType path m o.2 shared = .ok r ∧
      r.Ensures (fun ep => ep.method = m ∧ ep.path = path ∧ ep.WellFormed)
        (IsOfOperation path m) := by
  obtain ⟨r, hr, hi, he⟩ := itemEntry_map mediaType path shared hs h
  have hnone := not_halts_iff.mp (mt (halts_resolve h hr).mp hb)
  exact ⟨r, hi.trans (guarded_of_none hnone _ _), hr, he⟩

/-- What was noted before an operation is broken off is kept. -/
theorem itemEntry_broken (mediaType path : String) (shared : Value) {part : Entries}
    (hs : Spells o.1 m) (h : sc.graph.entries? o.2 = some part)
    (hb : Breaks sc (subject path m) part shared) :
    (itemEntry sc mediaType path shared o).value = [] ∧ ∃ ds l,
      (itemEntry sc mediaType path shared o).trace.diagnostics =
        ds ++ [⟨.endpoint, subject path m, .limit l⟩] ∧ ∀ x ∈ ds, IsOfOperation path m x := by
  obtain ⟨r, hr, hi, he⟩ := itemEntry_map mediaType path shared hs h
  obtain ⟨l, hl⟩ := (halts_resolve h hr).mpr hb
  rw [hi, guarded_of_some hl]
  refine ⟨rfl, r.trace.reached.diagnostics, l, Trace.diagnostics_append _ _, fun x hx => ?_⟩
  exact he.diagnostics x (r.trace.diagnostics_reached_sublist.subset hx)

theorem itemEntry_malformed (mediaType path : String) (shared : Value) (hs : Spells o.1 m)
    (h : sc.graph.isMap o.2 = false) :
    ∃ p, itemEntry sc mediaType path shared o = .noting .endpoint (subject path m) p [] :=
  ⟨_, by rw [itemEntry_spelled mediaType path shared hs, resolve_not_map mediaType path m shared h]⟩

theorem itemEntry_other (h : ∀ m, ¬ Spells o.1 m) :
    itemEntry sc mediaType path shared o = .silent [] := by
  unfold itemEntry
  split
  · rename_i text ht
    split
    · rfl
    · rename_i m hk
      exact absurd (ht ▸ (spells_iff text m).mpr hk) (h m)
  · rfl

theorem itemEntry_accounted (sc : Scope) (mediaType path : String) (shared : Value)
    (o : Scalar × Value) :
    OperationAccounted sc path shared o (itemEntry sc mediaType path shared o) where
  operation m part hs h hb := by
    obtain ⟨r, he, _, hr⟩ := itemEntry_operation mediaType path shared hs h hb
    rw [he]
    exact ⟨r.value, rfl, hr.value.1, hr.value.2.1, hr.diagnostics⟩
  broken m part hs h hb := itemEntry_broken mediaType path shared hs h hb
  malformed m hs h := by
    obtain ⟨p, he⟩ := itemEntry_malformed mediaType path shared hs h
    rw [he]
    exact ⟨rfl, p, rfl⟩
  other h := by
    rw [itemEntry_other h]
    exact ⟨rfl, rfl⟩

theorem itemEntry_ensures (shared : Value) (o : Scalar × Value) :
    (itemEntry sc mediaType path shared o).Ensures (fun eps => ∀ ep ∈ eps, ep.WellFormed)
      (fun x => x.kind.isOfPaths = true) := by
  by_cases hs : ∃ m, Spells o.1 m
  · obtain ⟨m, hs⟩ := hs
    cases h : sc.graph.entries? o.2 with
    | some part =>
      obtain ⟨r, _, hi, he⟩ := itemEntry_map mediaType path shared hs h
      rw [hi]
      exact (he.weaken (fun _ hep => hep.2.2) fun _ hx => hx.isOfPaths).guarded fun _ => rfl
    | none =>
      obtain ⟨p, he⟩ := itemEntry_malformed mediaType path shared hs
        (Graph.isMap_eq_false_iff.mpr h)
      rw [he]
      exact ensures_noting (by simp) rfl
  · rw [itemEntry_other fun m hm => hs ⟨m, hm⟩]
    exact ensures_silent (by simp)

theorem not_halts_itemEntry : ¬ (itemEntry sc mediaType path shared o).Halts := by
  unfold itemEntry
  split
  · split
    · exact not_halts_silent _
    · split
      · exact not_halts_guarded _ _ _
      · exact not_halts_noting _ _ _ _
  · exact not_halts_silent _

variable {entry : Scalar × Value}

theorem pathEntry_unreadable {e : RefError} (h : sc.follow entry.2 = .error e) :
    pathEntry sc mediaType entry =
      .showing entry.1.limit? (.refusing .path entry.1.text e []) := by
  simp only [pathEntry, h]

theorem pathEntry_malformed {v : Value} (h : sc.follow entry.2 = .ok v)
    (hm : sc.graph.isMap v = false) :
    pathEntry sc mediaType entry = .showing entry.1.limit?
      (.noting .path entry.1.text (.notObject "path item" (sc.graph.kindName v)) []) := by
  simp only [pathEntry, h, Graph.isMap_eq_false_iff.mp hm]

theorem pathEntry_item {v : Value} {es : Entries} (h : sc.follow entry.2 = .ok v)
    (he : sc.graph.entries? v = some es) :
    pathEntry sc mediaType entry = .showing entry.1.limit?
      (.gather (itemEntry sc mediaType entry.1.text (es.field "parameters")) es) := by
  simp only [pathEntry, h, he]

theorem pathEntry_accounted (sc : Scope) (mediaType : String) (entry : Scalar × Value) :
    PathAccounted sc mediaType entry (pathEntry sc mediaType entry) where
  unreadable e h hr := by
    rw [pathEntry_unreadable h, refusing_resolution hr, value_showing, diagnostics_showing]
    exact ⟨rfl, _, rfl⟩
  malformed v h hm := by
    rw [pathEntry_malformed h hm, value_showing, diagnostics_showing]
    exact ⟨rfl, _, rfl⟩
  item v es h he := by
    rw [pathEntry_item h he, value_showing, diagnostics_showing]
    exact ⟨value_gather _ es, diagnostics_gather _ es, fun o _ => itemEntry_accounted ..⟩

/-- The limits that a path does not handle: its name is too long to be written, or a reference of
its item cannot be read. -/
theorem halts_pathEntry : (pathEntry sc mediaType entry).Halts ↔
    ∃ l, entry.1.limit? = some l ∨ sc.follow entry.2 = .error (.limit l) := by
  rw [exists_or]
  cases hf : sc.follow entry.2 with
  | error e =>
    rw [pathEntry_unreadable hf, halts_showing, halts_refusing]
    simp
  | ok v =>
    cases hv : sc.graph.entries? v with
    | none =>
      rw [pathEntry_malformed hf (Graph.isMap_eq_false_iff.mpr hv), halts_showing]
      simp
    | some es =>
      rw [pathEntry_item hf hv, halts_showing, halts_gather]
      simp [not_halts_itemEntry]

/-- Whoever contributes an endpoint is an operation under a method that is not broken off, and
resolves to it. -/
theorem mem_itemEntry {ep : Endpoint} (h : ep ∈ (itemEntry sc mediaType path shared o).value) :
    ∃ m part r, Spells o.1 m ∧ sc.graph.entries? o.2 = some part ∧
      ¬ Breaks sc (subject path m) part shared ∧
      resolve sc mediaType path m o.2 shared = .ok r ∧ r.value = ep := by
  have hacc := itemEntry_accounted sc mediaType path shared o
  by_cases hs : ∃ m, Spells o.1 m
  · obtain ⟨m, hs⟩ := hs
    cases hmap : sc.graph.entries? o.2 with
    | none =>
      rw [(hacc.malformed m hs (Graph.isMap_eq_false_iff.mpr hmap)).1] at h
      cases h
    | some part =>
      by_cases hb : Breaks sc (subject path m) part shared
      · rw [(hacc.broken m part hs hmap hb).1] at h
        cases h
      · obtain ⟨r, hi, hr, _⟩ := itemEntry_operation mediaType path shared hs hmap hb
        rw [hi] at h
        exact ⟨m, part, r, hs, rfl, hb, hr, (List.mem_singleton.mp h).symm⟩
  · have hnone : ∀ m, ¬ Spells o.1 m := fun m hm => hs ⟨m, hm⟩
    rw [(hacc.other hnone).1] at h
    cases h

theorem value_no_item
    (h : ∀ v item, sc.follow entry.2 = .ok v → sc.graph.entries? v ≠ some item) :
    (pathEntry sc mediaType entry).value = [] := by
  cases hf : sc.follow entry.2 with
  | error x => rw [pathEntry_unreadable hf, value_showing, value_refusing]
  | ok v =>
    cases hv : sc.graph.entries? v with
    | none =>
      rw [pathEntry_malformed hf (Graph.isMap_eq_false_iff.mpr hv), value_showing, value_noting]
    | some item => exact absurd hv (h v item hf)

theorem mem_pathEntry {ep : Endpoint} (h : ep ∈ (pathEntry sc mediaType entry).value) :
    ∃ v item o, sc.follow entry.2 = .ok v ∧ sc.graph.entries? v = some item ∧ o ∈ item ∧
      ep ∈ (itemEntry sc mediaType entry.1.text (item.field "parameters") o).value := by
  by_cases hitem : ∃ v item, sc.follow entry.2 = .ok v ∧ sc.graph.entries? v = some item
  · obtain ⟨v, item, hf, hv⟩ := hitem
    rw [pathEntry_item hf hv, value_showing, value_gather] at h
    obtain ⟨o, ho, h⟩ := List.mem_flatMap.mp h
    exact ⟨v, item, o, hf, hv, ho, h⟩
  · rw [value_no_item fun v item hf hv => hitem ⟨v, item, hf, hv⟩] at h
    cases h

theorem pathEntry_ensures (entry : Scalar × Value) :
    (pathEntry sc mediaType entry).Ensures (fun eps => ∀ ep ∈ eps, ep.WellFormed)
      (fun x => x.kind.isOfPaths = true) := by
  cases h : sc.follow entry.2 with
  | error e =>
    rw [pathEntry_unreadable h]
    refine Ensures.showing (ensures_refusing ?_ ?_) _
    · simp
    · rfl
  | ok v =>
    cases he : sc.graph.entries? v with
    | none =>
      rw [pathEntry_malformed h (Graph.isMap_eq_false_iff.mpr he)]
      refine Ensures.showing (ensures_noting ?_ ?_) _
      · simp
      · rfl
    | some es =>
      rw [pathEntry_item h he]
      exact (ensures_gather fun o _ => itemEntry_ensures _ o).showing _

end Endpoint

end OpenApiIR
