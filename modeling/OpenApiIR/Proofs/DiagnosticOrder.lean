import OpenApiIR.Proofs.Assembly

/-! In which order a document's diagnostics come. Each resolver has a list beside it that names its
failures in the order of the text, without results and traces; a limit that is met stands in the
list up to the handler that tells of it. Main statement: the diagnostics of a resolved document are
that list, and its log announces them one by one and ends with a summary. -/

namespace OpenApiIR

open Report

/-- The failure of a step, if it fails, told of an entry. -/
def failureOf {α : Type} (kind : EntryKind) (subject : String) : Except Problem α → List Incident
  | .ok _ => []
  | .error problem => [.ok ⟨kind, subject, problem⟩]

/-- The failure of a step whose handler is made for the faults of references alone. -/
def refusalOf {α : Type} (kind : EntryKind) (subject : String) : Except Problem α → List Incident
  | .error (.ref (.limit l)) => [.error l]
  | step => failureOf kind subject step

theorem refusing_notes {α β : Type} (kind : EntryKind) (subject : String) (e : RefError) (b : β) :
    Notes (refusing kind subject e b)
      (refusalOf kind subject (.error (.ref e) : Except Problem α)) := by
  cases e <;> rfl

def nameLimit (key : Scalar) : List Incident := key.limit?.toList.map .error

namespace Schema

def propertyFailures (g : Graph) (model : String) (entry : Scalar × Value) : List Incident :=
  nameLimit entry.1 ++ if g.isMap entry.2 then []
    else [.ok ⟨.property, model ++ "." ++ entry.1.text,
      .notObject "property schema" (g.kindName entry.2)⟩]

/-- The failures in a schema: of the whole, or else of its properties one by one. -/
def failures (g : Graph) (entry : Scalar × Value) : List Incident :=
  let name := entry.1.text
  nameLimit entry.1 ++ match g.entries? entry.2 with
    | none => [.ok ⟨.model, name, .notObject "schema" (g.kindName entry.2)⟩]
    | some es => match propertiesOf? g es with
      | .error problem => [.ok ⟨.model, name, problem⟩]
      | .ok none => []
      | .ok (some ps) => match requiredNames g es with
        | .error problem => [.ok ⟨.model, name, problem⟩]
        | .ok _ => handled .model name (ps.flatMap (propertyFailures g name))

theorem propertyEntry_notes (g : Graph) (model : String) (required : List String)
    (entry : Scalar × Value) :
    Notes (propertyEntry g model required entry) (propertyFailures g model entry) := by
  unfold propertyEntry propertyFailures
  refine Notes.showing ?_ _
  split
  · exact notes_silent _
  · exact notes_noting ..

theorem modelEntry_notes (g : Graph) (entry : Scalar × Value) :
    Notes (modelEntry g entry) (failures g entry) := by
  refine Notes.showing ?_ _
  -- The cases follow the resolver: only a schema with readable properties and names goes on to
  -- them.
  cases he : g.entries? entry.2 with
  | none =>
    simp only [resolveModel, he]
    exact notes_noting ..
  | some es =>
    cases hp : propertiesOf? g es with
    | error problem =>
      simp only [resolveModel, he, hp, bind, Except.bind]
      exact notes_noting ..
    | ok found =>
      cases found with
      | none =>
        simp only [resolveModel, he, hp, bind, Except.bind]
        exact notes_silent _
      | some ps =>
        cases hr : requiredNames g es with
        | error problem =>
          simp only [resolveModel, he, hp, hr, bind, Except.bind]
          exact notes_noting ..
        | ok required =>
          simp only [resolveModel, he, hp, hr, bind, Except.bind]
          exact ((notes_gather fun q _ => propertyEntry_notes g _ required q).map _).guarded _ _

end Schema

namespace Parameter

def usable (sc : Scope) (list : Value) : List Entries :=
  ((sc.graph.items? list).getD []).filterMap fun v => (followToMap sc "parameter" v).toOption

def listFailures (sc : Scope) (subject : String) (list : Value) : List Incident :=
  match sc.graph.view list with
  | .null => []
  | .seq items => items.flatMap fun v => refusalOf .parameter subject (followToMap sc "parameter" v)
  | v => [.ok ⟨.parameter, subject, .notList "'parameters'" (sc.graph.kindName v)⟩]

/-- The failure of a merged parameter. A value that is nested too deeply to be shown has no handler.
-/
def mergedFailure (g : Graph) (subject : String) (es : Entries) : List Incident :=
  match resolve g es with
  | .error (.limit .depth) => [.error .depth]
  | r => failureOf .parameter subject r

/-- The failures of the shared list, of the operation's own, and of what the two are merged to. -/
def failures (sc : Scope) (subject : String) (shared own : Value) : List Incident :=
  listFailures sc subject shared ++ listFailures sc subject own ++
    (merge (usable sc shared) (usable sc own)).flatMap (mergedFailure sc.graph subject)

variable (sc : Scope) (subject : String)

theorem targetEntry_eq (entry : Value) : targetEntry sc subject entry =
    match followToMap sc "parameter" entry with
    | .ok es => .silent [es]
    | .error (.ref e) => .refusing .parameter subject e []
    | .error problem => .noting .parameter subject problem [] := by
  unfold targetEntry followToMap
  cases sc.follow entry with
  | error e => rfl
  | ok target =>
    dsimp only
    cases sc.graph.entries? target <;> rfl

theorem targetEntry_notes (entry : Value) :
    Notes (targetEntry sc subject entry)
      (refusalOf .parameter subject (followToMap sc "parameter" entry)) := by
  rw [targetEntry_eq]
  cases followToMap sc "parameter" entry with
  | ok es => exact notes_silent _
  | error problem =>
    cases problem with
    | ref e => exact refusing_notes .parameter subject e []
    | _ => exact notes_noting ..

theorem targets_notes (list : Value) :
    Notes (targets sc subject list) (listFailures sc subject list) := by
  unfold targets listFailures
  generalize sc.graph.view list = v
  cases v with
  | seq items => exact notes_gather fun v _ => targetEntry_notes sc subject v
  | scalar s => cases s <;> first | exact notes_silent _ | exact notes_noting ..
  | _ => exact notes_noting ..

theorem value_targetEntry (entry : Value) : (targetEntry sc subject entry).value =
    (followToMap sc "parameter" entry).toOption.toList := by
  rw [targetEntry_eq]
  cases followToMap sc "parameter" entry with
  | ok es => rfl
  | error problem =>
    cases problem with
    | ref e => exact value_refusing ..
    | _ => rfl

theorem value_targets (list : Value) : (targets sc subject list).value = usable sc list := by
  unfold targets usable Graph.items?
  generalize sc.graph.view list = v
  cases v with
  | seq items =>
    simp only [value_gather, value_targetEntry, Option.getD_some, List.filterMap_eq_flatMap_toList]
  | scalar s => cases s <;> rfl
  | _ => rfl

theorem mergedEntry_notes (g : Graph) (es : Entries) :
    Notes (mergedEntry g subject es) (mergedFailure g subject es) := by
  unfold mergedEntry mergedFailure
  cases resolve g es with
  | ok p => exact notes_silent _
  | error problem =>
    -- Of the limits only that of the depth is let through.
    cases problem with
    | limit l => cases l <;> first | exact notes_halting _ _ | exact notes_noting ..
    | _ => exact notes_noting ..

theorem resolveAll_notes (shared own : Value) :
    Notes (resolveAll sc subject shared own) (failures sc subject shared own) := by
  have h : Notes (resolveAll sc subject shared own) (_ ++ (_ ++ _)) :=
    (targets_notes sc subject shared).bind ((targets_notes sc subject own).bind
      (notes_gather fun es _ => mergedEntry_notes subject sc.graph es))
  simpa only [failures, value_targets, List.append_assoc] using h

end Parameter

def RequestBody.failures (sc : Scope) (mediaType subject : String) (body : Value) : List Incident :=
  failureOf .endpoint subject ((resolve sc mediaType body).mapError (.within "requestBody"))

theorem RequestBody.resolveOrNote_notes (sc : Scope) (mediaType subject : String) (body : Value) :
    Notes (resolveOrNote sc mediaType subject body) (failures sc mediaType subject body) := by
  unfold resolveOrNote failures
  cases resolve sc mediaType body with
  | ok b => exact notes_silent _
  | error problem => exact notes_noting ..

namespace Response

def failures (sc : Scope) (mediaType subject : String) (responses : Value) : List Incident :=
  match sc.graph.view responses with
  | .null => []
  | .map es => es.flatMap fun e => nameLimit e.1 ++ failureOf .endpoint subject
      ((resolve sc mediaType e.1.text e.2).mapError (.within ("response " ++ e.1.text)))
  | v => [.ok ⟨.endpoint, subject, .notObject "'responses'" (sc.graph.kindName v)⟩]

theorem entry_notes (sc : Scope) (mediaType subject : String) (e : Scalar × Value) :
    Notes (entry sc mediaType subject e) (nameLimit e.1 ++ failureOf .endpoint subject
      ((resolve sc mediaType e.1.text e.2).mapError (.within ("response " ++ e.1.text)))) := by
  refine Notes.showing ?_ _
  cases resolve sc mediaType e.1.text e.2 with
  | ok r => exact notes_silent _
  | error problem => exact notes_noting ..

theorem resolveAll_notes (sc : Scope) (mediaType subject : String) (responses : Value) :
    Notes (resolveAll sc mediaType subject responses)
      (failures sc mediaType subject responses) := by
  unfold resolveAll failures
  generalize sc.graph.view responses = v
  cases v with
  | map es => exact (notes_each fun e _ => entry_notes sc mediaType subject e).map _
  | scalar s => cases s <;> first | exact notes_silent _ | exact notes_noting ..
  | _ => exact notes_noting ..

end Response

namespace Endpoint

def partFailures (sc : Scope) (mediaType subject : String) (shared : Value) (es : Entries) :
    List Incident :=
  Parameter.failures sc subject shared (es.field "parameters") ++
    RequestBody.failures sc mediaType subject (es.field "requestBody") ++
    Response.failures sc mediaType subject (es.field "responses")

def operationFailures (sc : Scope) (mediaType path : String) (m : Method)
    (operation shared : Value) :
    List Incident :=
  let subject := m.name ++ " " ++ path
  match sc.graph.entries? operation with
  | none => [.ok ⟨.endpoint, subject, .notObject "operation" (sc.graph.kindName operation)⟩]
  | some es => handled .endpoint subject (partFailures sc mediaType subject shared es)

def methodOf? : Scalar → Option Method
  | .str key => Method.ofKey? key
  | _ => none

def itemFailures (sc : Scope) (mediaType path : String) (item : Entries) : List Incident :=
  item.flatMap fun o => (methodOf? o.1).toList.flatMap fun m =>
    operationFailures sc mediaType path m o.2 (item.field "parameters")

/-- The failures of a path: of its item as a whole, or else of its operations in their order. -/
def pathFailures (sc : Scope) (mediaType : String) (entry : Scalar × Value) : List Incident :=
  nameLimit entry.1 ++ match followToMap sc "path item" entry.2 with
    | .ok item => itemFailures sc mediaType entry.1.text item
    | r => refusalOf .path entry.1.text r

variable (sc : Scope) (mediaType path : String)

theorem resolve_notes (m : Method) {operation : Value} (shared : Value) {es : Entries}
    (h : sc.graph.entries? operation = some es) :
    ∃ r, resolve sc mediaType path m operation shared = .ok r ∧
      Notes r (partFailures sc mediaType (subject path m) shared es) := by
  refine ⟨_, by simp only [resolve, h]; rfl, ?_⟩
  rw [partFailures, List.append_assoc, ← List.append_nil (Response.failures ..)]
  -- Each resolver notes its own part; the record of the endpoint, which comes last, notes nothing.
  refine (Parameter.resolveAll_notes sc _ shared _).bind ?_
  refine (RequestBody.resolveOrNote_notes sc mediaType _ _).bind ?_
  exact (Response.resolveAll_notes sc mediaType _ _).bind (notes_silent _)

theorem itemEntry_notes (shared : Value) (o : Scalar × Value) :
    Notes (itemEntry sc mediaType path shared o) ((methodOf? o.1).toList.flatMap fun m =>
      operationFailures sc mediaType path m o.2 shared) := by
  cases hm : methodOf? o.1 with
  | none =>
    have hs : ∀ m, ¬ Spells o.1 m := by
      rintro m ⟨text, ht, hl⟩
      rw [ht, methodOf?, (Method.ofKey?_eq_some_iff text m).mpr hl] at hm
      cases hm
    rw [itemEntry_other hs]
    exact notes_silent _
  | some m =>
    have hs : Spells o.1 m := by
      obtain ⟨key, operation⟩ := o
      cases key with
      | str text => exact (spells_iff text m).mpr hm
      | _ => cases hm
    rw [itemEntry_spelled mediaType path shared hs]
    simp only [Option.toList_some, List.flatMap_singleton]
    cases he : sc.graph.entries? o.2 with
    | none =>
      rw [resolve_not_map mediaType path m shared (Graph.isMap_eq_false_iff.mpr he),
        operationFailures, he]
      exact notes_noting ..
    | some es =>
      obtain ⟨r, hr, hn⟩ := resolve_notes sc mediaType path m shared he
      rw [hr, operationFailures, he]
      exact hn.guarded _ _

theorem pathEntry_notes (entry : Scalar × Value) :
    Notes (pathEntry sc mediaType entry) (pathFailures sc mediaType entry) := by
  refine Notes.showing ?_ _
  unfold followToMap
  cases sc.follow entry.2 with
  | error e => exact refusing_notes .path entry.1.text e []
  | ok target =>
    dsimp only
    cases sc.graph.entries? target with
    | none => exact notes_noting ..
    | some es => exact notes_gather fun o _ => itemEntry_notes sc mediaType _ _ o

end Endpoint

namespace IR

def sectionFailures (g : Graph) (es : Entries) (key subject : String) : List Incident :=
  match g.view (es.field key) with
  | .null | .map _ => []
  | v => [.ok ⟨.document, subject, .malformedSection (g.kindName v)⟩]

def versionFailures (g : Graph) (es : Entries) : List Incident :=
  match checkVersion g es with
  | .ok _ => []
  | .error (.limit l) => [.error l]
  | .error e => .ok ⟨.document, "openapi", .version e⟩ ::
      (g.limit? (es.field "openapi")).toList.map .error

def modelFailures (g : Graph) (es : Entries) : List Incident :=
  sectionFailures g es "components" "components" ++
    sectionFailures g (g.mapBelow es "components") "schemas" "components.schemas" ++
    (schemaEntries g es).flatMap (Schema.failures g)

def endpointFailures (sc : Scope) (mediaType : String) (es : Entries) : List Incident :=
  sectionFailures sc.graph es "paths" "paths" ++
    (pathEntries sc.graph es).flatMap (Endpoint.pathFailures sc mediaType)

/-- The failures in a document, in the order of the walk. -/
def failures (d : Document) (mediaType : String) (es : Entries) : List Incident :=
  versionFailures d.graph es ++ modelFailures d.graph es ++ endpointFailures d.scope mediaType es

theorem resolveVersion_notes (g : Graph) (es : Entries) :
    Notes (resolveVersion g es) (versionFailures g es) := by
  unfold resolveVersion versionFailures
  dsimp only
  cases checkVersion g es with
  | ok version => exact notes_silent _
  | error e =>
    cases e with
    | limit l => exact notes_halting _ _
    | _ => cases g.limit? (es.field "openapi") <;> exact rfl

theorem sectionOf_notes (g : Graph) (es : Entries) (key subject : String) :
    Notes (sectionOf g es key subject) (sectionFailures g es key subject) := by
  unfold sectionOf sectionFailures
  generalize g.view (es.field key) = v
  cases v with
  | map inner => exact notes_silent _
  | scalar s => cases s <;> first | exact notes_silent _ | exact notes_noting ..
  | _ => exact notes_noting ..

theorem resolveModels_notes (g : Graph) (es : Entries) :
    Notes (resolveModels g es) (modelFailures g es) := by
  unfold resolveModels modelFailures schemaEntries
  rw [List.append_assoc]
  refine (sectionOf_notes g es _ _).bind ?_
  rw [value_sectionOf]
  refine (sectionOf_notes g _ _ _).bind ?_
  rw [value_sectionOf]
  exact notes_gather fun e _ => Schema.modelEntry_notes g e

theorem resolveEndpoints_notes (sc : Scope) (mediaType : String) (es : Entries) :
    Notes (resolveEndpoints sc mediaType es) (endpointFailures sc mediaType es) := by
  unfold resolveEndpoints endpointFailures pathEntries
  refine (sectionOf_notes sc.graph es _ _).bind ?_
  rw [value_sectionOf]
  exact notes_gather fun e _ => Endpoint.pathEntry_notes sc mediaType e

theorem resolveParts_notes (d : Document) (mediaType : String) (es : Entries) :
    Notes (resolveParts d mediaType es) (failures d mediaType es) := by
  rw [failures, List.append_assoc, ← List.append_nil (endpointFailures d.scope mediaType es)]
  refine (resolveVersion_notes d.graph es).bind ?_
  refine (resolveModels_notes d.graph es).bind ?_
  exact (resolveEndpoints_notes d.scope mediaType es).bind (notes_silent _)

variable {d : Document} {es : Entries}

/-- The failures of a resolved document are its diagnostics in the order of the walk, and no limit
is among them. Its log holds one warning for each of them, in the same order, and then the summary.
-/
theorem log_follows_diagnostics {mediaType : String} {ir : IR} {log : List LogRecord}
    (h : resolveWithLog d mediaType = .ok (ir, log)) (hroot : d.graph.entries? d.root = some es) :
    failures d mediaType es = ir.diagnostics.map .ok ∧
      log = ir.diagnostics.map (fun x =>
          ⟨.warning, "oasir.parser.diagnostics", "Skipping " ++ x.kind.name ++ " " ++ x.subject ++
            ": " ++ x.message⟩) ++
        [⟨.debug, "oasir.parser.document", "Resolved " ++ toString ir.models.length ++
          " models and " ++ toString ir.endpoints.length ++ " endpoints with " ++
          toString ir.diagnostics.length ++ " diagnostics"⟩] := by
  have hn := resolveParts_notes d mediaType es
  rcases resolveWithLog_map d mediaType es hroot with ⟨hu, hr⟩ | ⟨_, l, log', hr⟩
  · have hresult := Except.ok.inj (hr.symm.trans h)
    obtain rfl : (resolveEntries d mediaType es).1 = ir := congrArg Prod.fst hresult
    obtain rfl : (resolveEntries d mediaType es).2 = log := congrArg Prod.snd hresult
    have hhalts : ¬ (resolveParts d mediaType es).Halts := fun hh =>
      hu ((unhandled_iff d mediaType es).mpr (Or.inl hh))
    refine ⟨hn.eq_of_not_halts hhalts, ?_⟩
    have hl : (resolveEntries d mediaType es).2 =
        (resolveParts d mediaType es).trace.log ++
          [summary (resolveEntries d mediaType es).1.models
            (resolveEntries d mediaType es).1.endpoints
            (resolveEntries d mediaType es).1.diagnostics] := rfl
    rw [hl, hn.log]
    rfl
  · rw [hr] at h
    cases h

/-- An operation with a fault in every part, below shared parameters with one of their own. -/
def strayItem : Entries := [
  (.str "parameters", .seq [.int 7]),
  (.str "get", .map [
    (.str "responses", .map [(.str "200", .int 7)]),
    (.str "requestBody", .int 5),
    (.str "parameters", .seq [.map [], .map [(.str "$ref", .str "id")]])])]

def strayEntries : Entries := [
  (.str "swagger", .str "2.0"),
  (.str "paths", .map [(.str "/pets", .map strayItem), (.str "/lost", .int 3)]),
  (.str "components", .map [(.str "schemas", .map [
    (.str "Pet", .map [(.str "properties", .map [(.str "bad", .int 3)])]), (.str "Odd", .int 5)])])]

theorem filterMap_toOption_ok (ds : List Diagnostic) :
    (ds.map Except.ok : List Incident).filterMap Except.toOption = ds := by
  rw [List.filterMap_map]
  exact List.filterMap_some

theorem stray_entries_logged : ∃ ir log,
    resolveWithLog (.ofTree (.map strayEntries)) "application/json" = .ok (ir, log) ∧
      ir.diagnostics.map (fun x => (x.kind, x.subject)) = [
        (.document, "openapi"), (.property, "Pet.bad"), (.model, "Odd"), (.parameter, "GET /pets"),
        (.parameter, "GET /pets"), (.parameter, "GET /pets"), (.endpoint, "GET /pets"),
        (.endpoint, "GET /pets"), (.path, "/lost")] ∧
      (log.drop 7).map (·.message) = [
        "Skipping endpoint GET /pets: response 200: response must be an object, got int",
        "Skipping path /lost: path item must be an object, got int",
        "Resolved 1 models and 1 endpoints with 9 diagnostics"] := by
  have hresult : resolveWithLog (.ofTree (.map strayEntries)) "application/json" =
      .ok (resolveEntries (.ofTree (.map strayEntries)) "application/json" strayEntries) := rfl
  have hok : (resolveWithLog (.ofTree (.map strayEntries)) "application/json").toBool = true := by
    rw [hresult]
    rfl
  obtain ⟨⟨ir, log⟩, h⟩ := exists_of_toBool hok
  obtain ⟨hd, _⟩ := log_follows_diagnostics h rfl
  have hlog : (resolveEntries (.ofTree (.map strayEntries)) "application/json" strayEntries).2 =
    log :=
    congrArg Prod.snd (Except.ok.inj (hresult.symm.trans h))
  have htold := congrArg (List.filterMap Except.toOption) hd
  refine ⟨ir, log, h, ?_, ?_⟩
  · rw [← filterMap_toOption_ok ir.diagnostics, ← htold]
    decide +kernel
  · rw [← hlog]
    decide +kernel

end IR

end OpenApiIR
