import OpenApiIR.Proofs.Assembly
import OpenApiIR.Proofs.Loading

/-! Failures stay where they arise. Whatever a resolver raises inside a document is found among the
diagnostics of the resolved document. A document that is no map is refused, and of the others those
are broken off where a limit of the runtime is met that no handler is made for. -/

namespace OpenApiIR

namespace IR

/-- The failures that arise inside a document, as the diagnostics that they have to become. An
operation that is broken off is told of as a whole. -/
inductive Raised (d : Document) (mediaType : String) (es : Entries) : Diagnostic → Prop where
  | version {e : VersionError} : checkVersion d.graph es = .error e →
      Raised d mediaType es ⟨.document, "openapi", .version e⟩
  | schema {entry : Scalar × Value} {p : Problem} : entry ∈ schemaEntries d.graph es →
      Schema.resolveModel d.graph entry.1.text entry.2 = .error p →
      Raised d mediaType es ⟨.model, entry.1.text, p⟩
  | unwritten {entry : Scalar × Value} {r : Report Model} {l : Limit} :
      entry ∈ schemaEntries d.graph es →
      Schema.resolveModel d.graph entry.1.text entry.2 = .ok (some r) → r.trace.halt? = some l →
      Raised d mediaType es ⟨.model, entry.1.text, .limit l⟩
  | path {entry : Scalar × Value} {e : RefError} : entry ∈ pathEntries d.graph es →
      d.scope.follow entry.2 = .error e → Raised d mediaType es ⟨.path, entry.1.text, .ref e⟩
  | operation {path : String} {m : Method} {operation shared : Value} {p : Problem} :
      IsOperation d es path m operation shared →
      Endpoint.resolve d.scope mediaType path m operation shared = .error p →
      Raised d mediaType es ⟨.endpoint, Endpoint.subject path m, p⟩
  | broken {path : String} {m : Method} {operation shared : Value} {r : Report Endpoint}
      {l : Limit} :
      IsOperation d es path m operation shared →
      Endpoint.resolve d.scope mediaType path m operation shared = .ok r →
      r.trace.halt? = some l →
      Raised d mediaType es ⟨.endpoint, Endpoint.subject path m, .limit l⟩
  | target {path : String} {m : Method} {operation shared list v : Value} {part : Entries}
      {items : List Value} {e : RefError} :
      IsOperation d es path m operation shared → d.graph.entries? operation = some part →
      ¬ Endpoint.Breaks d.scope (Endpoint.subject path m) part shared →
      list = shared ∨ list = part.field "parameters" → d.graph.items? list = some items →
      v ∈ items → d.scope.follow v = .error e →
      Raised d mediaType es ⟨.parameter, Endpoint.subject path m, .ref e⟩
  | parameter {path : String} {m : Method} {operation shared : Value} {part raw : Entries}
      {p : Problem} :
      IsOperation d es path m operation shared → d.graph.entries? operation = some part →
      ¬ Endpoint.Breaks d.scope (Endpoint.subject path m) part shared →
      raw ∈ Parameter.merge
        (Parameter.targets d.scope (Endpoint.subject path m) shared).value
        (Parameter.targets d.scope (Endpoint.subject path m) (part.field "parameters")).value →
      Parameter.resolve d.graph raw = .error p →
      Raised d mediaType es ⟨.parameter, Endpoint.subject path m, p⟩
  | requestBody {path : String} {m : Method} {operation shared : Value} {part : Entries}
      {p : Problem} :
      IsOperation d es path m operation shared → d.graph.entries? operation = some part →
      ¬ Endpoint.Breaks d.scope (Endpoint.subject path m) part shared →
      RequestBody.resolve d.scope mediaType (part.field "requestBody") = .error p →
      Raised d mediaType es ⟨.endpoint, Endpoint.subject path m, .within "requestBody" p⟩
  | response {path : String} {m : Method} {operation shared : Value} {part responses : Entries}
      {r : Scalar × Value} {p : Problem} :
      IsOperation d es path m operation shared → d.graph.entries? operation = some part →
      ¬ Endpoint.Breaks d.scope (Endpoint.subject path m) part shared →
      d.graph.entries? (part.field "responses") = some responses → r ∈ responses →
      Response.resolve d.scope mediaType r.1.text r.2 = .error p →
      Raised d mediaType es
        ⟨.endpoint, Endpoint.subject path m, .within ("response " ++ r.1.text) p⟩

variable {d : Document} {mediaType : String} {es : Entries} {x : Diagnostic}

theorem version_recorded (h : x ∈ (resolveVersion d.graph es).trace.diagnostics) :
    x ∈ (resolveEntries d mediaType es).1.diagnostics := by
  rw [diagnostics_resolveEntries, List.append_assoc]
  exact List.mem_append_left _ h

theorem schema_recorded {entry : Scalar × Value} (he : entry ∈ schemaEntries d.graph es)
    (h : x ∈ (Schema.modelEntry d.graph entry).trace.diagnostics) :
    x ∈ (resolveEntries d mediaType es).1.diagnostics := by
  have hx : x ∈ (resolveEntries d mediaType es).1.diagnostics.filter (·.kind.isOfSchemas) := by
    rw [filter_of_schemas]
    exact List.mem_flatMap.mpr ⟨entry, he, h⟩
  exact (List.mem_filter.mp hx).1

theorem path_recorded {entry : Scalar × Value} (he : entry ∈ pathEntries d.graph es)
    (h : x ∈ (Endpoint.pathEntry d.scope mediaType entry).trace.diagnostics) :
    x ∈ (resolveEntries d mediaType es).1.diagnostics := by
  have hx : x ∈ (resolveEntries d mediaType es).1.diagnostics.filter (·.kind.isOfPaths) := by
    rw [filter_of_paths]
    exact List.mem_flatMap.mpr ⟨entry, he, h⟩
  exact (List.mem_filter.mp hx).1

variable {path : String} {m : Method} {operation shared : Value}

theorem item_recorded (h : IsOperation d es path m operation shared)
    (hx : ∀ key, Endpoint.Spells key m → x ∈ (Endpoint.itemEntry d.scope mediaType path shared
      (key, operation)).trace.diagnostics) :
    x ∈ (resolveEntries d mediaType es).1.diagnostics := by
  obtain ⟨he, hv, hi, ho, hs⟩ := h
  refine path_recorded he ?_
  rw [Endpoint.pathEntry_item hv hi, Report.diagnostics_showing, Report.diagnostics_gather]
  exact List.mem_flatMap.mpr ⟨_, ho, hx _ hs⟩

variable {part : Entries}

theorem part_recorded (h : IsOperation d es path m operation shared)
    (hp : d.scope.graph.entries? operation = some part)
    (hb : ¬ Endpoint.Breaks d.scope (Endpoint.subject path m) part shared)
    (hx : x ∈ (Parameter.resolveAll d.scope (Endpoint.subject path m) shared
          (part.field "parameters")).trace.diagnostics ∨
        x ∈ (RequestBody.resolveOrNote d.scope mediaType (Endpoint.subject path m)
          (part.field "requestBody")).trace.diagnostics ∨
        x ∈ (Response.resolveAll d.scope mediaType (Endpoint.subject path m)
          (part.field "responses")).trace.diagnostics) :
    x ∈ (resolveEntries d mediaType es).1.diagnostics := by
  obtain ⟨r, hr, hd⟩ := Endpoint.diagnostics_resolve mediaType path m shared hp
  have hnone := Report.not_halts_iff.mp (mt (Endpoint.halts_resolve hp hr).mp hb)
  refine item_recorded h fun key hs => ?_
  rw [Endpoint.itemEntry_spelled mediaType path shared hs, hr]
  dsimp only
  rw [Report.guarded_of_none hnone, Report.trace_map]
  simpa only [hd, List.mem_append] using hx

theorem target_noted {sc : Scope} {subject : String} {list v : Value} {items : List Value}
    {e : RefError} (hi : sc.graph.items? list = some items) (hv : v ∈ items)
    (h : sc.follow v = .error e) (hr : e.isResolution = true) :
    ⟨.parameter, subject, .ref e⟩ ∈ (Parameter.targets sc subject list).trace.diagnostics := by
  simp only [Parameter.targets, Graph.items?_eq_some_iff.mp hi, Report.diagnostics_gather]
  refine List.mem_flatMap.mpr ⟨v, hv, ?_⟩
  simp [Parameter.targetEntry, h, Report.refusing_resolution hr]

theorem diagnostics_resolveAll (sc : Scope) (subject : String) (shared own : Value) :
    (Parameter.resolveAll sc subject shared own).trace.diagnostics =
      (Parameter.targets sc subject shared).trace.diagnostics ++
        ((Parameter.targets sc subject own).trace.diagnostics ++
          (Report.gather (Parameter.mergedEntry sc.graph subject)
            (Parameter.merge (Parameter.targets sc subject shared).value
              (Parameter.targets sc subject own).value)).trace.diagnostics) := by
  simp only [Parameter.resolveAll, Report.trace_bind, Trace.diagnostics_append]

theorem parameter_noted {sc : Scope} {subject : String} {shared own : Value} {raw : Entries}
    {p : Problem} (hm : raw ∈ Parameter.merge (Parameter.targets sc subject shared).value
      (Parameter.targets sc subject own).value) (h : Parameter.resolve sc.graph raw = .error p)
    (hp : p ≠ .limit .depth) :
    ⟨.parameter, subject, p⟩ ∈
      (Parameter.resolveAll sc subject shared own).trace.diagnostics := by
  have hx : (⟨.parameter, subject, p⟩ : Diagnostic) ∈
      (Parameter.mergedEntry sc.graph subject raw).trace.diagnostics := by
    unfold Parameter.mergedEntry
    split
    · rename_i hok
      exact absurd (hok.symm.trans h) (by simp)
    · rename_i hdepth
      exact absurd (Except.error.inj (h.symm.trans hdepth)) hp
    · rename_i problem _ herror
      obtain rfl := Except.error.inj (herror.symm.trans h)
      exact List.mem_singleton_self _
  rw [diagnostics_resolveAll, Report.diagnostics_gather]
  refine List.mem_append_right _ (List.mem_append_right _ ?_)
  exact List.mem_flatMap.mpr ⟨raw, hm, hx⟩

theorem response_noted {sc : Scope} {subject : String} {list : Value} {responses : Entries}
    {r : Scalar × Value} {p : Problem} (hr : sc.graph.entries? list = some responses)
    (hm : r ∈ responses) (h : Response.resolve sc mediaType r.1.text r.2 = .error p) :
    ⟨.endpoint, subject, .within ("response " ++ r.1.text) p⟩ ∈
      (Response.resolveAll sc mediaType subject list).trace.diagnostics := by
  simp only [Response.resolveAll, Graph.entries?_eq_some_iff.mp hr, Report.trace_map,
    Report.diagnostics_each]
  refine List.mem_flatMap.mpr ⟨r, hm, ?_⟩
  simp [Response.entry, h]

/-- Every failure is recorded, at whatever depth it arises, if the resolution comes to its end. -/
theorem raised_recorded (hu : ¬ Unhandled d es) (h : Raised d mediaType es x) :
    x ∈ (resolveEntries d mediaType es).1.diagnostics := by
  cases h with
  | version h =>
    refine version_recorded ?_
    unfold resolveVersion
    dsimp only
    split
    · rename_i hok
      exact absurd (hok.symm.trans h) (by simp)
    · rename_i hl
      exact absurd (.declared hl) hu
    · rename_i e _ he
      obtain rfl := Except.error.inj (he.symm.trans h)
      exact List.mem_append_left _ (List.mem_singleton_self _)
  | schema he h =>
    refine schema_recorded he ?_
    simp [Schema.modelEntry, h]
  | unwritten he h hl =>
    refine schema_recorded he ?_
    simp [Schema.modelEntry, h, Report.guarded_of_some hl]
  | @path _ e he h =>
    refine path_recorded he ?_
    have hr : e.isResolution = true := by
      cases e with
      | limit l => exact absurd (.item he h) hu
      | _ => rfl
    simp [Endpoint.pathEntry_unreadable h, Report.refusing_resolution hr]
  | operation ho h =>
    refine item_recorded ho fun key hs => ?_
    rw [Endpoint.itemEntry_spelled mediaType _ _ hs, h]
    exact List.mem_singleton_self _
  | broken ho h hl =>
    refine item_recorded ho fun key hs => ?_
    rw [Endpoint.itemEntry_spelled mediaType _ _ hs, h]
    simp [Report.guarded_of_some hl]
  | @target _ _ _ _ _ _ _ _ e ho hp hb hl hi hv h =>
    have hr : e.isResolution = true := by
      cases e with
      | limit l => exact absurd (.target hl hi hv h) hb
      | _ => rfl
    -- The shared list is walked first, and the operation's own after it.
    refine part_recorded ho hp hb (Or.inl ?_)
    rw [diagnostics_resolveAll]
    rcases hl with rfl | rfl
    · exact List.mem_append_left _ (target_noted hi hv h hr)
    · exact List.mem_append_right _ (List.mem_append_left _ (target_noted hi hv h hr))
  | parameter ho hp hb hm h =>
    have hdepth := fun heq => hb (.parameter hm (h.trans (congrArg Except.error heq)))
    exact part_recorded ho hp hb (Or.inl (parameter_noted hm h hdepth))
  | requestBody ho hp hb h =>
    refine part_recorded ho hp hb (Or.inr (Or.inl ?_))
    simp [RequestBody.resolveOrNote, h]
  | response ho hp hb hr hm h =>
    exact part_recorded ho hp hb (Or.inr (Or.inr (response_noted hr hm h)))

/-- Refused is what is no map, and nothing else. -/
theorem resolve_notMap_iff (d : Document) (mediaType kind : String) :
    resolve d mediaType = .error (.notMap kind) ↔
      d.graph.isMap d.root = false ∧ kind = d.graph.kindName d.root := by
  rw [Graph.isMap_eq_false_iff]
  unfold resolve
  cases he : d.graph.entries? d.root with
  | none => simp [resolveWithLog, he, Except.map, eq_comm]
  | some es =>
    rcases resolveWithLog_map d mediaType es he with ⟨_, h⟩ | ⟨_, l, log, h⟩ <;>
      simp [h, Except.map]

end IR

/-- Of the operations given by name those fail that have no method, are no map, or are broken off.
-/
theorem Endpoint.resolveNamed_ok_iff (sc : Scope) (mediaType path name : String)
    (operation shared : Value) :
    (∃ r, resolveNamed sc mediaType path name operation shared = .ok r) ↔
      ∃ m part, Method.ofName? name = some m ∧ sc.graph.entries? operation = some part ∧
        ¬ Breaks sc (subject path m) part shared := by
  unfold resolveNamed
  cases hm : Method.ofName? name with
  | none => simp
  | some m =>
    cases he : sc.graph.entries? operation with
    | none =>
      have hr := resolve_not_map mediaType path m shared (Graph.isMap_eq_false_iff.mpr he)
      simp [hr, bind, Except.bind]
    | some part =>
      obtain ⟨r, hr, _⟩ := resolve_ensures mediaType path m shared (Graph.isMap_iff.mpr ⟨part, he⟩)
      have hhalts := halts_resolve he hr
      unfold Report.Halts at hhalts
      cases hl : r.trace.halt? with
      | none => simp [hr, bind, Except.bind, hl, pure, Except.pure, ← hhalts]
      | some l => simp [hr, bind, Except.bind, hl, ← hhalts]

namespace IR

/-- What is no map is refused. Of the maps those are broken off where a limit is met without a
handler, and every other resolves, with each failure inside it recorded. What is loaded is a map. An
operation that is a map fails only where it is broken off, whatever it refers to. -/
theorem failures_are_contained (d : Document) (mediaType : String) :
    (∀ kind, resolve d mediaType = .error (.notMap kind) ↔
      d.graph.isMap d.root = false ∧ kind = d.graph.kindName d.root) ∧
    (∀ es, d.graph.entries? d.root = some es →
      (¬ Unhandled d es ∧ ∃ ir, resolve d mediaType = .ok ir ∧
        ∀ x, Raised d mediaType es x → x ∈ ir.diagnostics) ∨
      Unhandled d es ∧ ∃ l log, resolve d mediaType = .error (.limit l log)) ∧
    (∀ w timeout followRedirects source, load w timeout followRedirects source = .ok d →
      ∀ kind, resolve d mediaType ≠ .error (.notMap kind)) ∧
    (∀ sc path name operation shared,
      (∃ r, Endpoint.resolveNamed sc mediaType path name operation shared = .ok r) ↔
        ∃ m part, Method.ofName? name = some m ∧ sc.graph.entries? operation = some part ∧
          ¬ Endpoint.Breaks sc (Endpoint.subject path m) part shared) := by
  refine ⟨resolve_notMap_iff d mediaType, fun es he => ?_, fun w timeout redirects source h => ?_,
    fun sc path name operation shared =>
      Endpoint.resolveNamed_ok_iff sc mediaType path name operation shared⟩
  · rcases resolveWithLog_map d mediaType es he with ⟨hu, hr⟩ | ⟨hu, l, log, hr⟩
    · refine Or.inl ⟨hu, (resolveEntries d mediaType es).1, ?_, fun x hx => raised_recorded hu hx⟩
      rw [resolve, hr]
      rfl
    · refine Or.inr ⟨hu, l, log, ?_⟩
      rw [resolve, hr]
      rfl
  · intro kind hk
    have hmap := load_bringsMap w timeout redirects source d h
    rw [((resolve_notMap_iff d mediaType kind).mp hk).1] at hmap
    cases hmap

/-- The item of a path is an item of a list, by an index that is too long. -/
def longItemEntries : Entries := [(.str "openapi", .str "3.0.0"), (.str "x", .seq []),
  (.str "paths", .map [(.str "/pets", .map [(.str "$ref", .str Pointer.ninesReference)])])]

theorem long_index_not_contained :
    (Document.ofTree (.map longItemEntries)).graph.isMap (.map longItemEntries) = true ∧
      ∃ l log, resolve (.ofTree (.map longItemEntries)) "application/json" =
        .error (.limit l log) := by
  have hfollow : (Document.ofTree (.map longItemEntries)).scope.follow
      (.map [(.str "$ref", .str Pointer.ninesReference)]) =
        .error (.limit (.read (Limit.digits + 1))) :=
    Scope.follow_broken rfl rfl (Pointer.resolve_nines rfl rfl rfl)
  have hu : Unhandled (.ofTree (.map longItemEntries)) longItemEntries :=
    .item (List.mem_singleton_self _) hfollow
  refine ⟨rfl, ?_⟩
  rcases resolveWithLog_map (.ofTree (.map longItemEntries)) "application/json" longItemEntries rfl
    with ⟨hnot, _⟩ | ⟨_, l, log, h⟩
  · exact absurd hu hnot
  · exact ⟨l, log, by rw [resolve, h]; rfl⟩

def faultyOperation : Entries := [
  (.str "parameters", .seq [.map [(.str "$ref", .str "other.yaml#/id")]]),
  (.str "responses", .map [(.str "200", .int 7)])]

def faultyItem : Entries := [(.str "get", .map faultyOperation)]

/-- A document with a fault at three depths: its version, a parameter and a response. -/
def faultyEntries : Entries := [
  (.str "swagger", .str "2.0"), (.str "paths", .map [(.str "/pets", .map faultyItem)])]

def faultyDocument : Document := .ofTree (.map faultyEntries)

theorem faults_contained : ∃ ir, resolve faultyDocument "application/json" = .ok ir ∧
    ⟨.document, "openapi", .version (.swagger "2.0")⟩ ∈ ir.diagnostics ∧
    ⟨.parameter, "GET /pets", .ref (.external "other.yaml#/id")⟩ ∈ ir.diagnostics ∧
    ⟨.endpoint, "GET /pets", .within "response 200" (.notObject "response" "int")⟩ ∈
      ir.diagnostics := by
  have hok : (resolve faultyDocument "application/json").toBool = true := by decide +kernel
  obtain ⟨ir, h⟩ := exists_of_toBool hok
  have hb : ¬ Endpoint.Breaks faultyDocument.scope (Endpoint.subject "/pets" .get)
      faultyOperation .null := by
    have hr : Endpoint.resolve faultyDocument.scope "application/json" "/pets" .get
        (.map faultyOperation) .null = .ok _ := rfl
    rw [← Endpoint.halts_resolve rfl hr, Report.not_halts_iff]
    decide +kernel
  have ho : IsOperation faultyDocument faultyEntries "/pets" .get (.map faultyOperation) .null :=
    @IsOperation.intro _ _ (.str "/pets", .map faultyItem) (.str "get", .map faultyOperation)
      (.map faultyItem) faultyItem .get List.mem_cons_self rfl rfl List.mem_cons_self
      ⟨"get", rfl, by decide +kernel⟩
  obtain ⟨_, ir', h', hr⟩ | ⟨_, l, log, h'⟩ :=
    (failures_are_contained faultyDocument "application/json").2.1 faultyEntries rfl
  · obtain rfl := Except.ok.inj (h.symm.trans h')
    refine ⟨ir, h, hr _ (.version rfl), hr _ ?_, hr _ ?_⟩
    · exact .target ho rfl hb (Or.inr rfl) rfl List.mem_cons_self rfl
    · exact .response ho rfl hb rfl List.mem_cons_self rfl
  · rw [h] at h'
    cases h'

end IR

end OpenApiIR
