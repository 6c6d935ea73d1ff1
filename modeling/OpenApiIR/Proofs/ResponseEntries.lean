import OpenApiIR.Proofs.SchemaNames

/-! What becomes of the responses of an operation. No entry is lost: one that stands for a map is
read as a response, and any other keeps its code, with one diagnostic. What such an entry is read as
instead is a fragment of a schema, although it is a response; but only a reference, or what is no
map, comes to that, so that no keyword of a response is ever taken for one of a schema. Main
statement: this, entry by entry. -/

namespace OpenApiIR

/-- The map that a value stands for, with its references followed. -/
def Scope.StandsFor (sc : Scope) (v : Value) (es : Entries) : Prop :=
  ∃ target, sc.follow v = .ok target ∧ sc.graph.entries? target = some es

/-- A `$ref` of the shape of one to a schema: the name after the path of the schemas, escaped. -/
inductive Scope.NamesSchema (sc : Scope) (v : Value) : String → Prop where
  | intro {ref : String} {segment : List Char} : sc.refOf? v = some (.str ref) →
      ref.toList = Pointer.schemaPath ++ segment → segment ≠ [] → '/' ∉ segment →
      NamesSchema sc v (String.ofList (Pointer.unescape segment))

namespace Response

/-- The schema that a response has for a media type, where each step on the way to it is a map. -/
inductive Offers (g : Graph) (mediaType : String) (es : Entries) : Value → Prop where
  | intro {content media : Entries} : g.entries? (es.field "content") = some content →
      g.entries? (content.field mediaType) = some media → g.isMap (media.field "schema") = true →
      Offers g mediaType es (media.field "schema")

/-- One entry of a map of responses: read as what it stands for, or degraded with one diagnostic. -/
structure EntryAccounted (sc : Scope) (mediaType subject : String) (e : Scalar × Value)
    (r : Report (String × Response)) : Prop where
  code : r.value.1 = e.1.text ∧ r.value.2.statusCode = e.1.text
  readable : ∀ es, sc.StandsFor e.2 es → r.trace.diagnostics = [] ∧
    (∀ schema, Offers sc.graph mediaType es schema →
      r.value.2.type = Schema.typeOf sc.graph schema) ∧
    ((∀ schema, ¬ Offers sc.graph mediaType es schema) → r.value.2.type = .any)
  degraded : (∀ es, ¬ sc.StandsFor e.2 es) →
    (∃ x cause, r.trace.diagnostics = [x] ∧ x.kind = .endpoint ∧ x.subject = subject ∧
      x.message = "response " ++ e.1.text ++ ": " ++ cause) ∧
    (∀ name, sc.NamesSchema e.2 name → r.value.2.type = .model name) ∧
    ((∀ name, ¬ sc.NamesSchema e.2 name) → r.value.2.type = .any)

end Response

variable {sc : Scope} {v : Value} {es : Entries} {what : String}

theorem followToMap_eq_ok_iff : followToMap sc what v = .ok es ↔ sc.StandsFor v es := by
  unfold followToMap Scope.StandsFor
  cases sc.follow v with
  | error e => simp
  | ok target =>
    dsimp only
    cases he : sc.graph.entries? target <;> simp [he]

theorem followToMap_not_ok (what : String) (h : ∀ es, ¬ sc.StandsFor v es) :
    ∃ problem, followToMap sc what v = .error problem := by
  cases hf : followToMap sc what v with
  | error problem => exact ⟨problem, rfl⟩
  | ok es => exact absurd (followToMap_eq_ok_iff.mp hf) (h es)

theorem Scope.standsFor_self (he : sc.graph.entries? v = some es) (hr : sc.refOf? v = none) :
    sc.StandsFor v es := by
  refine ⟨v, ?_, he⟩
  rw [follow, hr]

theorem Scope.namesSchema_iff {name : String} : sc.NamesSchema v name ↔
    ∃ ref, sc.refOf? v = some (.str ref) ∧ Pointer.schemaName? ref = some name := by
  simp only [Pointer.schemaName?_eq_some_iff]
  constructor
  · rintro ⟨hr, hpath, hne, hslash⟩
    exact ⟨_, hr, _, hpath, hne, hslash, rfl⟩
  · rintro ⟨ref, hr, segment, hpath, hne, hslash, rfl⟩
    exact .intro hr hpath hne hslash

theorem Schema.typeOf_not_map {g : Graph} (h : g.entries? v = none) : typeOf g v = .any := by
  rw [typeOf, typeWithin, stepType_eq, (form_not_map h).1, (form_not_map h).2,
    TypeRef.orNullable_false, Form.type]

namespace Response

variable {mediaType : String}

theorem mediaSchema?_eq_some_iff {g : Graph} {schema : Value} :
    mediaSchema? g (es.field "content") mediaType = some schema ↔ Offers g mediaType es schema := by
  constructor
  · intro h
    obtain ⟨content, hcontent, h⟩ := Option.bind_eq_some_iff.mp h
    obtain ⟨v, hv, h⟩ := Option.bind_eq_some_iff.mp h
    obtain ⟨media, hmedia, h⟩ := Option.bind_eq_some_iff.mp h
    have hfield : content.field mediaType = v := by
      rw [Entries.field, hv, Option.getD_some]
    dsimp only at h
    split at h
    · rename_i hmap
      obtain rfl := Option.some.inj h
      exact .intro hcontent (hfield ▸ hmedia) hmap
    · cases h
  · rintro ⟨hcontent, hmedia, hmap⟩
    have hvalue := Entries.value?_of_field fun hnull => by
      rw [hnull] at hmedia
      cases hmedia
    simp only [mediaSchema?, hcontent, hvalue, hmedia, hmap, Option.bind_eq_bind, Option.bind_some,
      if_true]

/-- What stands for a map is a response, typed by the schema that it has for the media type. -/
theorem resolve_map (status : String) (h : sc.StandsFor v es) :
    resolve sc mediaType status v = .ok ⟨status,
    ((mediaSchema? sc.graph (es.field "content") mediaType).map (Schema.typeOf sc.graph)).getD .any,
    (es.field "description").asText⟩ := by
  simp only [resolve, followToMap_eq_ok_iff.mpr h, bind, Except.bind, pure, Except.pure]
  cases mediaSchema? sc.graph (es.field "content") mediaType <;> rfl

theorem resolve_not_map (mediaType status : String) (h : ∀ es, ¬ sc.StandsFor v es) :
    ∃ problem, resolve sc mediaType status v = .error problem := by
  obtain ⟨problem, hp⟩ := followToMap_not_ok "response" h
  exact ⟨problem, by simp only [resolve, hp, bind, Except.bind]⟩

/-- Only a reference, or what is no map, is degraded: no other keyword of it has a say. -/
theorem degraded_type (h : ∀ es, ¬ sc.StandsFor v es) :
    (∀ name, sc.NamesSchema v name → Schema.typeOf sc.graph v = .model name) ∧
      ((∀ name, ¬ sc.NamesSchema v name) → Schema.typeOf sc.graph v = .any) := by
  cases hr : sc.refOf? v with
  | none =>
    constructor
    · rintro name ⟨hname, _⟩
      rw [hr] at hname
      cases hname
    · intro _
      cases he : sc.graph.entries? v with
      | none => exact Schema.typeOf_not_map he
      | some es => exact absurd (Scope.standsFor_self he hr) (h es)
  | some ref =>
    obtain ⟨part, he, hvalue⟩ := Option.bind_eq_some_iff.mp hr
    rw [Schema.typeOf_eq_refType he hvalue]
    constructor
    · intro name hname
      obtain ⟨text, htext, hschema⟩ := Scope.namesSchema_iff.mp hname
      obtain rfl := Option.some.inj (hr.symm.trans htext)
      simp only [Schema.refType, hschema]
    · intro hnone
      unfold Schema.refType
      split
      · rename_i text
        split
        · rename_i name hschema
          exact absurd (Scope.namesSchema_iff.mpr ⟨text, hr, hschema⟩) (hnone name)
        · rfl
      · rfl

theorem entry_accounted (sc : Scope) (mediaType subject : String) (e : Scalar × Value) :
    EntryAccounted sc mediaType subject e (entry sc mediaType subject e) where
  code := by
    refine ⟨code_entry e, ?_⟩
    simp only [entry, Report.value_showing]
    split
    · rename_i r hr
      exact (resolve_wellFormed hr).2
    · rfl
  readable es h := by
    simp only [entry, Report.value_showing, Report.diagnostics_showing, resolve_map e.1.text h]
    refine ⟨rfl, fun schema hs => ?_, fun hnone => ?_⟩
    · rw [Report.value_silent, mediaSchema?_eq_some_iff.mpr hs]
      rfl
    · have hschema : mediaSchema? sc.graph (es.field "content") mediaType = none :=
        Option.eq_none_iff_forall_ne_some.mpr fun schema hs =>
          hnone schema (mediaSchema?_eq_some_iff.mp hs)
      rw [Report.value_silent, hschema]
      rfl
  degraded h := by
    obtain ⟨problem, hp⟩ := resolve_not_map mediaType e.1.text h
    simp only [entry, Report.value_showing, Report.diagnostics_showing, hp]
    exact ⟨⟨_, problem.message, rfl, rfl, rfl, rfl⟩, degraded_type h⟩

theorem entry_not_halts (sc : Scope) (mediaType subject : String) {e : Scalar × Value}
    {text : String} (h : e.1 = .str text) : (entry sc mediaType subject e).trace.halt? = none := by
  rw [entry, h, Report.halt?_showing]
  cases resolve sc mediaType (Scalar.str text).text e.2 with
  | ok r => rfl
  | error problem => exact Report.halt?_noting ..

end Response

namespace ResponseMap

theorem put_new {rs : ResponseMap} {code : String} (h : code ∉ rs.map (·.1)) (r : Response) :
    put rs code r = rs ++ [(code, r)] := by
  induction rs with
  | nil => rfl
  | cons e rest ih =>
    rw [List.map_cons, List.mem_cons, not_or] at h
    rw [put, if_neg (Ne.symm h.1), ih h.2, List.cons_append]

theorem ofPairs_eq_self {rs : List (String × Response)} (h : (rs.map (·.1)).Nodup) :
    ofPairs rs = rs := by
  -- The map built so far has to vary for the induction on the pairs that are left.
  have go : ∀ rs acc : List (String × Response), ((acc ++ rs).map (·.1)).Nodup →
      rs.foldl (fun m r => put m r.1 r.2) acc = acc ++ rs := by
    intro rs
    induction rs with
    | nil =>
      intro acc _
      exact (List.append_nil acc).symm
    | cons r rest ih =>
      intro acc hacc
      have hnew : r.1 ∉ acc.map (·.1) := by
        rw [List.map_append, List.nodup_append] at hacc
        exact fun hr => hacc.2.2 r.1 hr r.1 List.mem_cons_self rfl
      have happend : acc ++ [(r.1, r.2)] ++ rest = acc ++ r :: rest := by simp
      rw [List.foldl_cons, put_new hnew, ih _ (happend ▸ hacc), happend]
  exact go rs [] h

end ResponseMap

namespace Response

variable {responses : Value} {mediaType subject : String}

theorem codes_entries (h : es.StringKeyed) :
    ((es.map fun e => (entry sc mediaType subject e).value).map (·.1)).Nodup := by
  have htexts : (es.map fun e => (entry sc mediaType subject e).value).map (·.1) = es.texts := by
    rw [List.map_map]
    exact List.map_congr_left fun e _ => code_entry e
  rw [htexts]
  exact h.nodup_texts

/-- Every entry of a map of responses gives one response under its own key, in the order of the map,
and each that stands for no map gives one diagnostic beside it. Nothing else is told, and no limit
is met. -/
theorem responses_accounted (mediaType subject : String) (h : sc.graph.entries? responses = some es)
    (hkeys : es.StringKeyed) : ∃ parts : List (Report (String × Response)),
      List.Forall₂ (EntryAccounted sc mediaType subject) es parts ∧
      (resolveAll sc mediaType subject responses).value = parts.map (·.value) ∧
      (resolveAll sc mediaType subject responses).trace.diagnostics =
        parts.flatMap (·.trace.diagnostics) ∧
      (resolveAll sc mediaType subject responses).value.map (fun r => .str r.1) = es.keys ∧
      ¬ (resolveAll sc mediaType subject responses).Halts := by
  have hvalue : (resolveAll sc mediaType subject responses).value =
      es.map fun e => (entry sc mediaType subject e).value := by
    rw [resolveAll_map h, ResponseMap.ofPairs_eq_self (codes_entries hkeys)]
  refine ⟨es.map (entry sc mediaType subject), ?_, ?_, ?_, ?_, ?_⟩
  · rw [List.forall₂_map_right_iff, List.forall₂_same]
    exact fun e _ => entry_accounted sc mediaType subject e
  · rw [hvalue, List.map_map]
    rfl
  · simp only [resolveAll, Graph.entries?_eq_some_iff.mp h, Report.trace_map,
      Report.diagnostics_each,
      List.flatMap_map]
  · rw [hvalue, List.map_map]
    refine List.map_congr_left fun e he => ?_
    obtain ⟨text, htext⟩ := hkeys.strings e he
    simp only [Function.comp_apply, code_entry, htext, Scalar.text]
  · rw [Report.not_halts_iff]
    simp only [resolveAll, Graph.entries?_eq_some_iff.mp h, Report.trace_map, Report.halt?_each]
    refine List.findSome?_eq_none_iff.mpr fun e he => ?_
    obtain ⟨text, htext⟩ := hkeys.strings e he
    exact entry_not_halts sc mediaType subject htext

def reusableScope : Scope where
  root := some (.map [(.str "components", .map [(.str "responses", .map [(.str "Missing", .map [
    (.str "content", .map [(.str "application/json", .map [
      (.str "schema", .map [(.str "type", .str "string")])])])])])])])
  graph := .empty

/-- A response, a reference to one, a reference to a schema that is not there, and a number. The
second of these has a sibling that would make a schema nullable. -/
def mixedResponses : Entries := [
  (.str "200", .map [(.str "content", .map [(.str "text/plain", .map [])])]),
  (.str "404", .map [(.str "$ref", .str "#/components/responses/Missing")]),
  (.str "default", .map [(.str "$ref", .str "#/components/schemas/a~1b"),
    (.str "nullable", .bool true)]),
  (.str "500", .int 7)]

theorem mixed_responses_accounted :
    (∃ parts,
      List.Forall₂ (EntryAccounted reusableScope "application/json" "GET /a") mixedResponses parts ∧
      (resolveAll reusableScope "application/json" "GET /a" (.map mixedResponses)).value =
        parts.map (·.value)) ∧
    (resolveAll reusableScope "application/json" "GET /a" (.map mixedResponses)).value.map
        (fun r => (r.1, r.2.type)) =
      [("200", .any), ("404", .string), ("default", .model "a/b"), ("500", .any)] ∧
    (resolveAll reusableScope "application/json" "GET /a"
      (.map mixedResponses)).trace.diagnostics.map
        (·.message) =
      ["response default: Cannot resolve $ref '#/components/schemas/a~1b': key 'schemas' not found at path",
        "response 500: response must be an object, got int"] := by
  have hkeys : mixedResponses.StringKeyed :=
    .of_names ["200", "404", "default", "500"] rfl (by decide)
  have hmap : reusableScope.graph.entries? (.map mixedResponses) = some mixedResponses := rfl
  obtain ⟨parts, hparts, hvalue, _⟩ :=
    responses_accounted "application/json" "GET /a" hmap hkeys
  refine ⟨⟨parts, hparts, hvalue⟩, ?_, ?_⟩
  · decide +kernel
  · decide +kernel

end Response

end OpenApiIR
