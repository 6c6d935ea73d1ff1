import OpenApiIR.Proofs.Assembly
import OpenApiIR.Settings.Basic

/-! The media type of the settings decides which schema gives a body its type, and nothing else, as
long as the media types that bodies declare can be written. Whether a body or a response can be read
is then settled before a media type is looked up, so two resolutions under different media types run
in step: they meet the same failures and leave the same trace. -/

namespace OpenApiIR

structure RequestBody.EqualButType (b b' : RequestBody) : Prop where
  isRequired : b'.isRequired = b.isRequired
  description : b'.description = b.description
  contentTypes : b'.contentTypes = b.contentTypes

structure Response.EqualButType (r r' : Response) : Prop where
  statusCode : r'.statusCode = r.statusCode
  description : r'.description = r.description

/-- The bodies of one operation. One of them may be missing. -/
def RequestBody.EqualWherePresent (b b' : Option RequestBody) : Prop :=
  ∀ x x', b = some x → b' = some x' → x.EqualButType x'

def ResponseMap.EqualButTypes : ResponseMap → ResponseMap → Prop :=
  List.Forall₂ fun r r' => r'.1 = r.1 ∧ r.2.EqualButType r'.2

/-- Endpoints that differ at most in the presence of a body and in the types of bodies. -/
structure Endpoint.EqualButBodies (e e' : Endpoint) : Prop where
  path : e'.path = e.path
  method : e'.method = e.method
  operationId : e'.operationId = e.operationId
  summary : e'.summary = e.summary
  description : e'.description = e.description
  tags : e'.tags = e.tags
  parameters : e'.parameters = e.parameters
  deprecated : e'.deprecated = e.deprecated
  requestBody : RequestBody.EqualWherePresent e.requestBody e'.requestBody
  responses : ResponseMap.EqualButTypes e.responses e'.responses

structure IR.EqualButBodies (ir ir' : IR) : Prop where
  openapiVersion : ir'.openapiVersion = ir.openapiVersion
  info : ir'.info = ir.info
  models : ir'.models = ir.models
  diagnostics : ir'.diagnostics = ir.diagnostics
  endpoints : List.Forall₂ Endpoint.EqualButBodies ir.endpoints ir'.endpoints

theorem Endpoint.EqualButBodies.refl (e : Endpoint) : e.EqualButBodies e := by
  refine ⟨rfl, rfl, rfl, rfl, rfl, rfl, rfl, rfl, fun x x' hx hx' => ?_, ?_⟩
  · obtain rfl := Option.some.inj (hx.symm.trans hx')
    exact ⟨rfl, rfl, rfl⟩
  · exact List.forall₂_same.mpr fun r _ => ⟨rfl, rfl, rfl⟩

theorem IR.EqualButBodies.refl (ir : IR) : ir.EqualButBodies ir :=
  ⟨rfl, rfl, rfl, rfl, List.forall₂_same.mpr fun e _ => .refl e⟩

open Report

variable {sc : Scope} {mediaType mediaType' subject : String}

/-- The media types that a body declares can all be written. -/
def RequestBody.Written (sc : Scope) (body : Value) : Prop :=
  ∀ es, followToMap sc "requestBody" body = .ok es →
    ∃ types, declaredTypes sc.graph (es.field "content") = .ok types

theorem RequestBody.resolve_map {body : Value} {es : Entries} {types : List String}
    (hb : body.isNull = false) (h : followToMap sc "requestBody" body = .ok es)
    (ht : declaredTypes sc.graph (es.field "content") = .ok types) :
    resolve sc mediaType body =
      .ok ((mediaSchema? sc.graph (es.field "content") mediaType).map fun schema =>
        ⟨Schema.typeOf sc.graph schema, (es.field "required").isTrue,
          (es.field "description").asText, types⟩) := by
  simp only [resolve, hb, h, bind, Except.bind, ht]
  cases mediaSchema? sc.graph (es.field "content") mediaType <;> rfl

theorem RequestBody.resolve_unreadable {body : Value} {p : Problem} (hb : body.isNull = false)
    (h : followToMap sc "requestBody" body = .error p) :
    resolve sc mediaType body = .error p := by
  simp only [resolve, hb, h, bind, Except.bind]
  rfl

theorem RequestBody.resolveOrNote_paired (sc : Scope) (mediaType mediaType' subject : String)
    {body : Value} (hw : Written sc body) :
    Paired EqualWherePresent (resolveOrNote sc mediaType subject body)
      (resolveOrNote sc mediaType' subject body) := by
  unfold resolveOrNote
  by_cases hb : body.isNull = true
  · simp only [resolve, hb, if_true]
    exact paired_silent fun _ _ hx _ => by cases hx
  · have hb : body.isNull = false := by simpa using hb
    cases h : followToMap sc "requestBody" body with
    | error p =>
      simp only [resolve_unreadable hb h]
      exact paired_noting fun _ _ hx _ => by cases hx
    | ok es =>
      obtain ⟨types, ht⟩ := hw es h
      simp only [resolve_map hb h ht]
      refine paired_silent fun x x' hx hx' => ?_
      obtain ⟨s, _, rfl⟩ := Option.map_eq_some_iff.mp hx
      obtain ⟨s', _, rfl⟩ := Option.map_eq_some_iff.mp hx'
      exact ⟨rfl, rfl, rfl⟩

theorem Response.resolve_cases (sc : Scope) (status : String) (response : Value) :
    (∃ p, ∀ mediaType, resolve sc mediaType status response = .error p) ∨
      ∃ description, ∀ mediaType, ∃ type,
        resolve sc mediaType status response = .ok ⟨status, type, description⟩ := by
  cases h : followToMap sc "response" response with
  | error p =>
    refine Or.inl ⟨p, fun mediaType => ?_⟩
    simp only [resolve, h, bind, Except.bind]
  | ok es =>
    refine Or.inr ⟨(es.field "description").asText, fun mediaType => ?_⟩
    simp only [resolve, h, bind, Except.bind]
    exact ⟨_, rfl⟩

theorem Response.entry_paired (e : Scalar × Value) :
    Paired (fun r r' => r'.1 = r.1 ∧ r.2.EqualButType r'.2) (entry sc mediaType subject e)
      (entry sc mediaType' subject e) := by
  refine Paired.showing ?_ _
  rcases resolve_cases sc e.1.text e.2 with ⟨p, h⟩ | ⟨description, h⟩
  · simp only [h]
    exact paired_noting ⟨rfl, rfl, rfl⟩
  · obtain ⟨type, h₁⟩ := h mediaType
    obtain ⟨type', h₂⟩ := h mediaType'
    simp only [h₁, h₂]
    exact paired_silent ⟨rfl, rfl, rfl⟩

theorem ResponseMap.EqualButTypes.put {rs rs' : ResponseMap} (h : rs.EqualButTypes rs')
    {k : String} {r r' : Response} (hr : r.EqualButType r') :
    (rs.put k r).EqualButTypes (rs'.put k r') := by
  induction h with
  | nil => exact .cons ⟨rfl, hr⟩ .nil
  | @cons e e' rest rest' he hrest ih =>
    unfold ResponseMap.put
    rw [he.1]
    by_cases hk : e.1 = k
    · simp only [hk, if_true]
      exact .cons ⟨rfl, hr⟩ hrest
    · simp only [hk, if_false]
      exact .cons ⟨rfl, he.2⟩ ih

theorem ResponseMap.equalButTypes_ofPairs {rs rs' : List (String × Response)}
    (h : ResponseMap.EqualButTypes rs rs') :
    ResponseMap.EqualButTypes (ofPairs rs) (ofPairs rs') := by
  -- The maps built so far have to vary for the induction on the pairs that are left.
  have go : ∀ {acc acc' : ResponseMap}, acc.EqualButTypes acc' →
      ResponseMap.EqualButTypes (rs.foldl (fun m r => put m r.1 r.2) acc)
        (rs'.foldl (fun m r => put m r.1 r.2) acc') := by
    induction h with
    | nil => exact fun ha => ha
    | cons he _ ih =>
      intro acc acc' ha
      rw [List.foldl_cons, List.foldl_cons, he.1]
      exact ih (ha.put he.2)
  exact go .nil

theorem Response.resolveAll_paired (sc : Scope) (mediaType mediaType' subject : String)
    (responses : Value) :
    Paired ResponseMap.EqualButTypes (resolveAll sc mediaType subject responses)
      (resolveAll sc mediaType' subject responses) := by
  unfold resolveAll
  split
  · exact paired_silent .nil
  · rename_i es _
    have heach : Paired ResponseMap.EqualButTypes (each (entry sc mediaType subject) es)
        (each (entry sc mediaType' subject) es) :=
      paired_each (List.forall₂_same.mpr fun e _ => entry_paired e)
    exact heach.map fun _ _ h => ResponseMap.equalButTypes_ofPairs h
  · exact paired_noting .nil

namespace Endpoint

/-- The media types of the body of an operation can be written. -/
def BodyWritten (sc : Scope) (operation : Value) : Prop :=
  ∀ es, sc.graph.entries? operation = some es → RequestBody.Written sc (es.field "requestBody")

theorem resolve_paired (sc : Scope) (mediaType mediaType' path : String) (m : Method)
    {operation : Value} (shared : Value) (hw : BodyWritten sc operation) :
    (∃ p, resolve sc mediaType path m operation shared = .error p ∧
      resolve sc mediaType' path m operation shared = .error p) ∨
    ∃ r r', resolve sc mediaType path m operation shared = .ok r ∧
      resolve sc mediaType' path m operation shared = .ok r' ∧ Paired EqualButBodies r r' := by
  cases he : sc.graph.entries? operation with
  | none =>
    have hm := Graph.isMap_eq_false_iff.mpr he
    exact Or.inl ⟨_, resolve_not_map _ _ _ _ hm, resolve_not_map _ _ _ _ hm⟩
  | some es =>
    refine Or.inr ⟨_, _, by simp only [resolve, he]; rfl, by simp only [resolve, he]; rfl, ?_⟩
    -- The parameters come first, and know nothing of media types.
    have hp : Paired Eq (Parameter.resolveAll sc (subject path m) shared (es.field "parameters"))
        (Parameter.resolveAll sc (subject path m) shared (es.field "parameters")) := ⟨rfl, rfl⟩
    refine hp.bind fun ps ps' hps => ?_
    refine (RequestBody.resolveOrNote_paired _ _ _ _ (hw es he)).bind fun b b' hb => ?_
    refine (Response.resolveAll_paired ..).bind fun rs rs' hrs => ?_
    exact paired_silent ⟨rfl, rfl, rfl, rfl, rfl, rfl, hps.symm, rfl, hb, hrs⟩

theorem itemEntry_paired (sc : Scope) (mediaType mediaType' path : String) (shared : Value)
    {o : Scalar × Value} (hw : ∀ m, Spells o.1 m → BodyWritten sc o.2) :
    Paired (List.Forall₂ EqualButBodies) (itemEntry sc mediaType path shared o)
      (itemEntry sc mediaType' path shared o) := by
  by_cases hs : ∃ m, Spells o.1 m
  · obtain ⟨m, hs⟩ := hs
    rw [itemEntry_spelled mediaType path shared hs, itemEntry_spelled mediaType' path shared hs]
    rcases resolve_paired sc mediaType mediaType' path m shared (hw m hs) with
      ⟨p, h, h'⟩ | ⟨r, r', h, h', hr⟩
    · simp only [h, h']
      exact paired_noting .nil
    · simp only [h, h']
      exact hr.guarded _ _
  · have hs : ∀ m, ¬ Spells o.1 m := fun m hm => hs ⟨m, hm⟩
    rw [itemEntry_other hs, itemEntry_other hs]
    exact paired_silent .nil

theorem pathEntry_paired (sc : Scope) (mediaType mediaType' : String) {entry : Scalar × Value}
    (hw : ∀ v es, sc.follow entry.2 = .ok v → sc.graph.entries? v = some es →
      ∀ o ∈ es, ∀ m, Spells o.1 m → BodyWritten sc o.2) :
    Paired (List.Forall₂ EqualButBodies) (pathEntry sc mediaType entry)
      (pathEntry sc mediaType' entry) := by
  cases h : sc.follow entry.2 with
  | error e =>
    rw [pathEntry_unreadable h, pathEntry_unreadable h]
    exact (paired_refusing (S := List.Forall₂ EqualButBodies) .nil).showing _
  | ok v =>
    cases he : sc.graph.entries? v with
    | none =>
      have hm := Graph.isMap_eq_false_iff.mpr he
      rw [pathEntry_malformed h hm, pathEntry_malformed h hm]
      exact (paired_noting (S := List.Forall₂ EqualButBodies) .nil).showing _
    | some es =>
      rw [pathEntry_item h he, pathEntry_item h he]
      refine (paired_gather ?_).showing _
      exact List.forall₂_same.mpr fun o ho => itemEntry_paired _ _ _ _ _ (hw v es h he o ho)

end Endpoint

namespace IR

/-- The media types of the bodies of all operations can be written. -/
def BodiesWritten (d : Document) (es : Entries) : Prop :=
  ∀ path m operation shared, IsOperation d es path m operation shared →
    Endpoint.BodyWritten d.scope operation

theorem resolveParts_paired (mediaType mediaType' : String) {d : Document} {es : Entries}
    (hw : BodiesWritten d es) :
    Paired (fun a b => b.1 = a.1 ∧ b.2.1 = a.2.1 ∧ List.Forall₂ Endpoint.EqualButBodies a.2.2 b.2.2)
      (resolveParts d mediaType es) (resolveParts d mediaType' es) := by
  have same : ∀ {α : Type} (r : Report α), Paired Eq r r := fun _ => ⟨rfl, rfl⟩
  have endpoints : Paired (List.Forall₂ Endpoint.EqualButBodies)
      (resolveEndpoints d.scope mediaType es) (resolveEndpoints d.scope mediaType' es) := by
    have hgather : Paired (List.Forall₂ Endpoint.EqualButBodies)
        (gather (Endpoint.pathEntry d.scope mediaType) (pathEntries d.graph es))
        (gather (Endpoint.pathEntry d.scope mediaType') (pathEntries d.graph es)) := by
      refine paired_gather (List.forall₂_same.mpr fun e he => ?_)
      exact Endpoint.pathEntry_paired _ _ _ fun v item hv hi o ho m hs =>
        hw _ m _ _ (.intro he hv hi ho hs)
    rw [pathEntries, ← value_sectionOf d.graph es "paths" "paths"] at hgather
    exact ⟨hgather.value, congrArg (_ ++ ·) hgather.trace⟩
  refine (same _).bind fun v v' hv => ?_
  refine (same _).bind fun ms ms' hms => ?_
  refine endpoints.bind fun eps eps' he => ?_
  exact paired_silent ⟨hv.symm, hms.symm, he⟩

/-- Whether a document is resolved to the end is settled without a media type. -/
theorem resolve_mediaType {d : Document} {mediaType : String} {ir : IR}
    (h : resolve d mediaType = .ok ir) (mediaType' : String) :
    ∃ ir', resolve d mediaType' = .ok ir' := by
  obtain ⟨es, he, hu, _⟩ := (resolve_ok_iff d mediaType).mp h
  exact ⟨_, (resolve_ok_iff d mediaType').mpr ⟨es, he, hu, rfl⟩⟩

theorem equalButBodies_of_written {d : Document} {mediaType mediaType' : String} {ir ir' : IR}
    {es : Entries} (h : resolve d mediaType = .ok ir) (h' : resolve d mediaType' = .ok ir')
    (hroot : d.graph.entries? d.root = some es) (hw : BodiesWritten d es) :
    ir.EqualButBodies ir' := by
  have hp := resolveParts_paired mediaType mediaType' hw
  obtain rfl := eq_of_resolve h hroot
  obtain rfl := eq_of_resolve h' hroot
  exact ⟨hp.value.1, rfl, hp.value.2.1, congrArg Trace.diagnostics hp.trace, hp.value.2.2⟩

/-- Two settings resolve a document to results that are equal but for the types of bodies, and for
whether an operation has a body, if the media types of its bodies can be written. Settings with one
media type resolve it to the same result. -/
theorem media_type_touches_bodies {d : Document} {s : Settings} {ir : IR} {es : Entries}
    (h : resolve d s.mediaType = .ok ir) (hroot : d.graph.entries? d.root = some es)
    (hw : BodiesWritten d es) (s' : Settings) :
    ∃ ir', resolve d s'.mediaType = .ok ir' ∧
      ir.EqualButBodies ir' ∧ (s.mediaType = s'.mediaType → ir = ir') := by
  obtain ⟨ir', h'⟩ := resolve_mediaType h s'.mediaType
  refine ⟨ir', h', equalButBodies_of_written h h' hroot hw, fun hs => ?_⟩
  rw [hs] at h
  exact Except.ok.inj (h.symm.trans h')

def offersOperation : Entries := [
  (.str "requestBody", .map [(.str "content", .map [(.str "application/json",
    .map [(.str "schema", .map [(.str "type", .str "number")])])])]),
  (.str "responses", .map [(.str "200", .map [(.str "content", .map [
    (.str "application/json", .map [(.str "schema", .map [(.str "type", .str "number")])]),
    (.str "text/plain", .map [(.str "schema", .map [(.str "type", .str "string")])])])])])]

def offersEntries : Entries := [
  (.str "paths", .map [(.str "/offers", .map [(.str "put", .map offersOperation)])])]

def offersDocument : Document := .ofTree (.map offersEntries)

theorem offers_written : BodiesWritten offersDocument offersEntries := by
  rintro path m operation shared ⟨hentry, hv, hi, ho, hs⟩ part hpart body hbody
  obtain rfl := List.mem_singleton.mp hentry
  obtain rfl := Except.ok.inj hv
  obtain rfl := Option.some.inj hi
  obtain rfl := List.mem_singleton.mp ho
  obtain rfl := Option.some.inj hpart
  obtain rfl := Except.ok.inj hbody
  exact ⟨_, rfl⟩

theorem offers_bodies_touched : ∃ ir ir', resolve offersDocument "application/json" = .ok ir ∧
    resolve offersDocument "text/plain" = .ok ir' ∧ ir.EqualButBodies ir' ∧
    ir.endpoints.map (fun e => (e.requestBody.isSome, e.responses.map (·.2.type))) =
      [(true, [.double])] ∧
    ir'.endpoints.map (fun e => (e.requestBody.isSome, e.responses.map (·.2.type))) =
      [(false, [.string])] := by
  have h : resolve offersDocument Settings.standard.mediaType = .ok _ := rfl
  obtain ⟨ir', h', hq, _⟩ := media_type_touches_bodies h rfl offers_written
    { Settings.standard with mediaType := "text/plain" }
  obtain rfl := Except.ok.inj h'
  exact ⟨_, _, rfl, rfl, hq, by decide +kernel, by decide +kernel⟩

/-- A body with a media type that is a number of more digits than are written. -/
def longTypeBody : Value := .map [(.str "content", .map [
  (.str "application/json", .map [(.str "schema", .map [(.str "type", .str "string")])]),
  (.int (.ofNat (10 ^ Limit.digits)), .map [])])]

def longTypeDocument : Document := .ofTree (.map [(.str "openapi", .str "3.0.0"),
  (.str "paths", .map [(.str "/offers", .map [(.str "put", .map [
    (.str "requestBody", longTypeBody)])])])])

/-- It is told of only where its schema is found. -/
theorem long_type_told_apart :
    ((resolve longTypeDocument "application/json").map (·.diagnostics)) =
      .ok [⟨.endpoint, "PUT /offers", .within "requestBody" (.limit .written)⟩] ∧
    ((resolve longTypeDocument "text/plain").map (·.diagnostics)) = .ok [] := by
  constructor <;> decide +kernel

end IR

end OpenApiIR
