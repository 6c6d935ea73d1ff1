import OpenApiIR.Proofs.JsonText
import OpenApiIR.Proofs.PlainForm
import OpenApiIR.Proofs.RenderedKeys
import OpenApiIR.Proofs.TableText
import OpenApiIR.Proofs.Utf8Text

/-! Resolved documents and tables as JSON. A record has its fields once each, and responses stand
under codes that differ, so nothing of a resolved document is lost in its text. Main statement: the
text that a run of the parser brings is read as the resolved document, and neither the flags nor the
place of the data change it; but a text with half of a surrogate pair in it has no bytes, and is not
brought at all. -/

namespace OpenApiIR

namespace Json

variable {n : Nat}

theorem textual_record {fields : List (String × Value)} (hnames : (fields.map (·.1)).Nodup)
    (h : ∀ f ∈ fields, Textual n f.2) : Textual (n + 1) (.record fields) := by
  refine .map (Entries.StringKeyed.of_names _ (by simp [Entries.keys]) hnames) fun e he => ?_
  obtain ⟨f, hf, rfl⟩ := List.mem_map.mp he
  exact h f hf

section

variable {α : Type} {encode : α → Value}

theorem textual_items {xs : List α} (h : ∀ x ∈ xs, Textual n (encode x)) :
    Textual (n + 1) (.seq (xs.map encode)) := by
  refine .seq fun v hv => ?_
  obtain ⟨x, hx, rfl⟩ := List.mem_map.mp hv
  exact h x hx

theorem textual_optional {o : Option α} (h : ∀ a, o = some a → Textual n (encode a)) :
    Textual n (.optional encode o) := by
  cases o with
  | none => exact .null
  | some a => exact h a rfl

end

theorem textual_name (o : Option String) : Textual n (.optional .str o) :=
  textual_optional fun s _ => .str s

theorem textual_texts (ss : List String) : Textual (n + 1) (.texts ss) :=
  textual_items fun s _ => .str s

/-- A type takes one pair of brackets more than it has items inside one another. -/
theorem textual_type : ∀ t : TypeRef, Textual (t.items.length + 1) t.encode
  | ⟨kind, nullable, none, refName⟩ => by
    refine textual_record (by simp) ?_
    simp only [List.forall_mem_cons]
    exact ⟨.str _, .bool _, .null, textual_name _, List.forall_mem_nil _⟩
  | ⟨kind, nullable, some t, refName⟩ => by
    refine textual_record (by simp) ?_
    simp only [List.forall_mem_cons]
    exact ⟨.str _, .bool _, textual_type t, textual_name _, List.forall_mem_nil _⟩

theorem textual_resolved {t : TypeRef} (h : t.WellFormed) : Textual 66 t.encode :=
  (textual_type t).mono (Nat.succ_le_succ h.2)

theorem textual_property {p : Property} (h : p.WellFormed) : Textual 67 p.encode := by
  refine textual_record (by simp) ?_
  simp only [List.forall_mem_cons]
  exact ⟨.str _, textual_resolved h.type, .bool _, .str _, List.forall_mem_nil _⟩

theorem textual_model {m : Model} (h : m.WellFormed) : Textual 69 m.encode := by
  refine textual_record (by simp) ?_
  simp only [List.forall_mem_cons]
  exact ⟨.str _, textual_items fun p hp => textual_property (h p hp), .str _, List.forall_mem_nil _⟩

theorem textual_parameter {p : Parameter} (h : p.WellFormed) : Textual 67 p.encode := by
  refine textual_record (by simp) ?_
  simp only [List.forall_mem_cons]
  exact ⟨.str _, .str _, textual_resolved h.type, .bool _, .str _, List.forall_mem_nil _⟩

theorem textual_body {b : RequestBody} (h : b.WellFormed) : Textual 67 b.encode := by
  refine textual_record (by simp) ?_
  simp only [List.forall_mem_cons]
  exact ⟨textual_resolved h, .bool _, .str _, textual_texts _, List.forall_mem_nil _⟩

theorem textual_response {r : Response} (h : r.WellFormed) : Textual 67 r.encode := by
  refine textual_record (by simp) ?_
  simp only [List.forall_mem_cons]
  exact ⟨.str _, textual_resolved h, .str _, List.forall_mem_nil _⟩

theorem textual_diagnostic (d : Diagnostic) : Textual (n + 1) d.encode := by
  refine textual_record (by simp) ?_
  simp only [List.forall_mem_cons]
  exact ⟨.str _, .str _, .str _, .str _, List.forall_mem_nil _⟩

theorem textual_info (i : ApiInfo) : Textual (n + 1) i.encode := by
  refine textual_record (by simp) ?_
  simp only [List.forall_mem_cons]
  exact ⟨.str _, .str _, textual_name _, List.forall_mem_nil _⟩

/-- Responses are the one part whose names come from the document. -/
theorem textual_responses {rs : ResponseMap} (hnodup : (rs.map (·.1)).Nodup)
    (h : ∀ r ∈ rs, r.2.WellFormed) : Textual 68 rs.encode := by
  refine .map (Entries.StringKeyed.of_names _ (by simp [Entries.keys]) hnodup) fun e he => ?_
  obtain ⟨r, hr, rfl⟩ := List.mem_map.mp he
  exact textual_response (h r hr)

theorem textual_endpoint {e : Endpoint} (hnodup : (e.responses.map (·.1)).Nodup)
    (h : e.WellFormed) : Textual 69 e.encode := by
  refine textual_record (by simp) ?_
  simp only [List.forall_mem_cons]
  exact ⟨.str _, .str _, textual_name _, .str _, .str _, textual_texts _,
    textual_items fun p hp => textual_parameter (h.parameters p hp),
    (textual_optional fun b hb => textual_body (h.requestBody b hb)).mono (by decide),
    textual_responses hnodup fun r hr => (h.responses r hr).1, .bool _, List.forall_mem_nil _⟩

end Json

namespace IR

variable {d : Document} {mediaType : String} {ir : IR}

theorem response_codes_nodup (h : resolve d mediaType = .ok ir) {ep : Endpoint}
    (hep : ep ∈ ir.endpoints) : (ep.responses.map (·.1)).Nodup := by
  obtain ⟨es, _, _, rfl⟩ := (resolve_ok_iff d mediaType).mp h
  obtain ⟨part, hpart⟩ := exists_isFrom hep
  obtain ⟨subject, hresponses⟩ := hpart.eq_resolveAll
  rw [hresponses]
  exact Response.nodup_codes_resolveAll

theorem textual_encode (h : resolve d mediaType = .ok ir) : Json.Textual 71 ir.encode := by
  have hendpoints : Json.Textual 70 (.seq (ir.endpoints.map Endpoint.encode)) :=
    Json.textual_items fun _ hep =>
      Json.textual_endpoint (response_codes_nodup h hep) (endpoint_wellFormed h hep)
  have hmodels : Json.Textual 70 (.seq (ir.models.map Model.encode)) :=
    Json.textual_items fun _ hm => Json.textual_model (model_wellFormed h hm)
  refine Json.textual_record (by simp) ?_
  simp only [List.forall_mem_cons]
  exact ⟨Json.textual_name _, Json.textual_info _, hmodels, hendpoints,
    Json.textual_items fun d _ => Json.textual_diagnostic d, List.forall_mem_nil _⟩

end IR

theorem Command.Resolves.textual {c : Command} {env : Environment} {shown : List Display} {ir : IR}
    (h : c.Resolves env shown ir) : Json.Textual 71 ir.encode := by
  cases h with
  | @intro s d _ _ _ _ hr =>
    have hresolve : IR.resolve d s.mediaType = .ok ir := by rw [IR.resolve, hr, Except.map]
    exact IR.textual_encode hresolve

namespace Table

theorem keys_zip {headers row : List String} (hlength : row.length = headers.length) :
    Entries.keys ((headers.zip row).map fun (h, c) => (.str h, .str c)) =
      headers.map Scalar.str := by
  have hfirst : (headers.zip row).map Prod.fst = headers := List.map_fst_zip (by omega)
  conv => rhs; rw [← hfirst]
  simp [Entries.keys]

/-- Under different headers every cell has a place of its own. -/
theorem record_eq_zip {headers row : List String} (hnodup : headers.Nodup)
    (hlength : row.length = headers.length) :
    record headers row = (headers.zip row).map fun (h, c) => (.str h, .str c) :=
  Entries.ofPairs_distinct (Entries.StringKeyed.of_names _ (keys_zip hlength) hnodup).distinct

theorem keys_record {headers row : List String} (hnodup : headers.Nodup)
    (hlength : row.length = headers.length) : (record headers row).keys =
    headers.map Scalar.str := by
  rw [record_eq_zip hnodup hlength, keys_zip hlength]

theorem textual_records {t : Table} (h : t.Rectangular) (hnodup : t.headers.Nodup) :
    Json.Textual 2 t.records := by
  refine Json.textual_items fun row hrow => ?_
  have hlength := h.even row hrow
  refine .map (Entries.StringKeyed.of_names _ (keys_record hnodup hlength) hnodup) fun e he => ?_
  rw [record_eq_zip hnodup hlength] at he
  obtain ⟨cell, -, rfl⟩ := List.mem_map.mp he
  exact .str cell.2

end Table

theorem Task.Prints.headers_nodup {ir : IR} {task : Task} {t : Table} (h : Prints ir task t) :
    t.headers.Nodup := by
  cases h with
  | models => exact (by decide : ["Model", "Properties", "Description"].Nodup)
  | model => exact (by decide : ["Property", "Type", "Required", "Description"].Nodup)
  | endpoints => exact (by decide : ["Method", "Path", "Operation", "Body", "Responses"].Nodup)
  | diagnostics => exact (by decide : ["Kind", "Subject", "Message"].Nodup)

/-- A text that is written as it is read: as JSON, given room for so many brackets inside one
another, and as the bytes of a file. -/
structure Json.Spells (depth : Nat) (text : String) (v : Value) : Prop where
  encodable : Text.Encodable text
  read {room : Nat} : depth ≤ room → Json.read room text = .ok v
  bytes : Load.fileText text.toUTF8.toList = .ok text

section

variable {depth : Nat} {v : Value}

theorem Json.read_line (h : Textual depth v) {room : Nat} (hroom : depth ≤ room) :
    read room (write v ++ "\n") = .ok v := by
  refine read_write h hroom fun c hc => ?_
  obtain rfl : c = '\n' := by simpa using hc
  rfl

theorem Json.spells_write (h : Textual depth v) (hbytes : Text.Encodable (write v)) :
    Spells depth (write v ++ "\n") v := by
  refine ⟨Console.encodable_ended.mpr hbytes, read_line h, Load.fileText_bytes ?_⟩
  simpa [write] using return_not_mem_value h 0

end

def IR.text (ir : IR) : String := Json.write ir.encode ++ "\n"

theorem Console.documentText_eq_text {c : Console} (h : c.outputFile = none → c.format ≠ .rich)
    (ir : IR) : c.documentText ir.encode = ir.text := by
  have hrich : ¬ (c.format = .rich ∧ c.outputFile = none) := fun hr => h hr.2 hr.1
  rw [documentText, if_neg hrich]
  rfl

theorem IR.exists_log {d : Document} {mediaType : String} {ir : IR}
    (h : resolve d mediaType = .ok ir) : ∃ log, resolveWithLog d mediaType = .ok (ir, log) := by
  unfold resolve at h
  cases hr : resolveWithLog d mediaType with
  | error e =>
    rw [hr] at h
    cases h
  | ok r =>
    rw [hr] at h
    obtain rfl := Except.ok.inj h
    exact ⟨r.2, rfl⟩

theorem IR.same_of_text_eq {d d' : Document} {mediaType mediaType' : String} {ir ir' : IR}
    (h : resolve d mediaType = .ok ir) (h' : resolve d' mediaType' = .ok ir')
    (htext : ir'.text = ir.text) : ir'.Same ir := by
  have hread : Json.read 71 ir.text = .ok ir.encode := Json.read_line (textual_encode h) le_rfl
  have hread' : Json.read 71 ir'.text = .ok ir'.encode := Json.read_line (textual_encode h') le_rfl
  rw [htext, hread] at hread'
  exact same_of_encode_eq (Except.ok.inj hread').symm

namespace Environment

def quotedEnvironment : Environment := petEnvironment "\\\"é\\\\\\u0001"

def petParse : Command := ⟨"-", none, none, .parse false⟩

def half : String := .singleton (Text.ofCodePoint 0xD800)

def halfPetFlags : Flags := { petFlags with output := some "pets.json" }

end Environment

end OpenApiIR
