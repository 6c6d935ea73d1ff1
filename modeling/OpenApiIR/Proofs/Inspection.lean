import OpenApiIR.Proofs.EncodedIR
import OpenApiIR.Proofs.MediaType
import OpenApiIR.Proofs.RunData

/-! Inspection as JSON. The records of a table stand for the entries of one section of the resolved
document, one for each and in their order, and agree with them in the cells that identify an entry.
Main statement: what an inspection prints is such a list of records, but for two of the three lists
nothing at all is printed when they are empty. -/

namespace OpenApiIR

/-- A list that can be inspected: its table, the section of the resolved document that it shows, and
the headers of the cells that identify an entry, each with the field that it repeats. -/
structure Listing where
  table : IR → Table
  key : String
  identifying : List (String × String)

def Task.listing? : Task → Option Listing
  | .models => some ⟨Inspect.models, "models", [("Model", "name")]⟩
  | .endpoints => some ⟨Inspect.endpoints, "endpoints", [("Method", "method"), ("Path", "path")]⟩
  | .diagnostics => some ⟨Inspect.diagnostics, "diagnostics",
      [("Kind", "kind"), ("Subject", "subject"), ("Message", "message")]⟩
  | _ => none

/-- A record with a cell for each header, which identifies an entry the way its own fields do. -/
def Identifies (headers : List String) (pairs : List (String × String))
    (record entry : Value) : Prop :=
  ∃ cells fields : Entries, record = .map cells ∧ entry = .map fields ∧
    cells.keys = headers.map Scalar.str ∧
    ∀ p ∈ pairs, ∃ text, cells.value? (.str p.1) = some (.str text) ∧
      fields.value? (.str p.2) = some (.str text)

theorem identifies_items {α : Type} {headers : List String} {pairs : List (String × String)}
    {row : α → List String} {encode : α → Value} {R : α → α → Prop} {xs ys : List α}
    (h : List.Forall₂ R xs ys)
    (hone : ∀ x y, R x y →
      Identifies headers pairs (.map (Table.record headers (row x))) (encode y)) :
    List.Forall₂ (Identifies headers pairs)
      ((xs.map row).map fun r => .map (Table.record headers r)) (ys.map encode) := by
  rw [List.map_map, List.forall₂_map_left_iff, List.forall₂_map_right_iff]
  exact h.imp hone

namespace Inspect

theorem model_identified (m : Model) : Identifies ["Model", "Properties", "Description"]
    [("Model", "name")] (.map (Table.record ["Model", "Properties", "Description"] (modelRow m)))
    m.encode := by
  refine ⟨_, _, rfl, rfl, Table.keys_record (by decide) rfl, fun p hp => ?_⟩
  obtain rfl := List.mem_singleton.mp hp
  exact ⟨m.name, rfl, rfl⟩

theorem endpoint_identified {e e' : Endpoint} (h : e.EqualButBodies e') :
    Identifies ["Method", "Path", "Operation", "Body", "Responses"]
      [("Method", "method"), ("Path", "path")]
      (.map (Table.record ["Method", "Path", "Operation", "Body", "Responses"] (endpointRow e)))
      e'.encode := by
  refine ⟨_, _, rfl, rfl, Table.keys_record (by decide) rfl, fun p hp => ?_⟩
  simp only [List.mem_cons, List.not_mem_nil, or_false] at hp
  rcases hp with rfl | rfl
  · exact ⟨e.method.name, rfl, by rw [← h.method]; rfl⟩
  · exact ⟨e.path, rfl, by rw [← h.path]; rfl⟩

theorem diagnostic_identified (d : Diagnostic) : Identifies ["Kind", "Subject", "Message"]
    [("Kind", "kind"), ("Subject", "subject"), ("Message", "message")]
    (.map (Table.record ["Kind", "Subject", "Message"] (diagnosticRow d))) d.encode := by
  refine ⟨_, _, rfl, rfl, Table.keys_record (by decide) rfl, fun p hp => ?_⟩
  simp only [List.mem_cons, List.not_mem_nil, or_false] at hp
  rcases hp with rfl | rfl | rfl
  · exact ⟨d.kind.name, rfl, rfl⟩
  · exact ⟨d.subject, rfl, rfl⟩
  · exact ⟨d.message, rfl, rfl⟩

end Inspect

namespace Listing

variable {l : Listing} {task : Task} {ir ir' : IR}

def records (l : Listing) (ir : IR) : List Value :=
  (l.table ir).rows.map fun row => .map (Table.record (l.table ir).headers row)

/-- A value with the section of a list, whose entries the records identify one by one. -/
def Agrees (l : Listing) (headers : List String) (records : List Value) (whole : Value) : Prop :=
  ∃ (es : Entries) (entries : List Value), whole = .map es ∧
    es.value? (.str l.key) = some (.seq entries) ∧
    List.Forall₂ (Identifies headers l.identifying) records entries

theorem agrees (h : task.listing? = some l) (hsame : ir.EqualButBodies ir') :
    l.Agrees (l.table ir).headers (l.records ir) ir'.encode := by
  cases task with
  | models =>
    obtain rfl := Option.some.inj h
    have hmodels : List.Forall₂ Eq ir.models ir'.models := by
      rw [hsame.models]
      exact List.forall₂_same.mpr fun _ _ => rfl
    refine ⟨_, _, rfl, rfl, identifies_items hmodels fun m m' hm => ?_⟩
    rw [← hm]
    exact Inspect.model_identified m
  | endpoints =>
    obtain rfl := Option.some.inj h
    exact ⟨_, _, rfl, rfl, identifies_items hsame.endpoints fun _ _ => Inspect.endpoint_identified⟩
  | diagnostics =>
    obtain rfl := Option.some.inj h
    have hdiagnostics : List.Forall₂ Eq ir.diagnostics ir'.diagnostics := by
      rw [hsame.diagnostics]
      exact List.forall₂_same.mpr fun _ _ => rfl
    refine ⟨_, _, rfl, rfl, identifies_items hdiagnostics fun d d' hd => ?_⟩
    rw [← hd]
    exact Inspect.diagnostic_identified d
  | parse strict => cases h
  | model name => cases h

/-- Two of the lists are not printed when they are empty. -/
theorem prints_or_nothing (h : task.listing? = some l) (ir : IR) :
    ((l.records ir ≠ [] ∨ task = .endpoints) ∧ task.Prints ir (l.table ir)) ∨
    (¬ (l.records ir ≠ [] ∨ task = .endpoints) ∧
      ∃ text, task.script ir = ⟨[.info text], .exit 0⟩) := by
  cases task with
  | models =>
    obtain rfl := Option.some.inj h
    by_cases hne : ir.models = []
    · refine Or.inr ⟨by simp [records, Inspect.models, hne],
        "No models defined in this document.", ?_⟩
      simp only [Task.script, Script.tableOr, Inspect.models, hne, List.map_nil]
    · exact Or.inl ⟨by simp [records, Inspect.models, hne], .models hne⟩
  | endpoints =>
    obtain rfl := Option.some.inj h
    exact Or.inl ⟨Or.inr rfl, .endpoints⟩
  | diagnostics =>
    obtain rfl := Option.some.inj h
    by_cases hne : ir.diagnostics = []
    · refine Or.inr ⟨by simp [records, Inspect.diagnostics, hne],
        "No diagnostics. Every entry resolved cleanly.", ?_⟩
      simp only [Task.script, Script.tableOr, Inspect.diagnostics, hne, List.map_nil]
    · exact Or.inl ⟨by simp [records, Inspect.diagnostics, hne], .diagnostics hne⟩
  | parse strict => cases h
  | model name => cases h

theorem textual (h : task.listing? = some l) (hlist : l.records ir ≠ [] ∨ task = .endpoints) :
    Json.Textual 2 (.seq (l.records ir)) := by
  rcases prints_or_nothing h ir with ⟨-, ht⟩ | ⟨hnot, -⟩
  · exact Table.textual_records ht.rectangular ht.headers_nodup
  · exact absurd hlist hnot

def text (l : Listing) (ir : IR) : String := Json.write (.seq (l.records ir)) ++ "\n"

/-- There is something to list, or endpoints are asked for, and the records have bytes. -/
structure Printed (l : Listing) (task : Task) (ir : IR) : Prop where
  listed : l.records ir ≠ [] ∨ task = .endpoints
  bytes : Text.Encodable (l.text ir)

theorem encodable_text_of_nil (h : l.records ir = []) : Text.Encodable (l.text ir) := by
  rw [text, h]
  exact Console.encodable_ended.mpr (Json.encodable_write.mpr rfl)

end Listing

namespace Environment

variable {env : Environment} {words : List String} {flags : Flags} {c : Command} {l : Listing}
variable {shown : List Display} {ir : IR}

/-- All that an inspection prints as JSON. -/
theorem run_listing (hrun : Invocation.ofWords words = .run flags c)
    (hlisting : c.task.listing? = some l) (hformat : (env.console flags).format = .json)
    (hscreen : (env.console flags).outputFile = none) (hresolves : c.Resolves env shown ir) :
    (env.run words).exitCode = (if Text.Encodable (l.text ir) then 0 else 1) ∧
    (l.Printed c.task ir → (env.run words).stdout = l.text ir) ∧
    (¬ l.Printed c.task ir → (env.run words).stdout = "") := by
  rw [run_command hrun, Command.script_resolves hresolves]
  rcases Listing.prints_or_nothing hlisting ir with ⟨hlisted, ht⟩ | ⟨hnot, note, hscript⟩
  · have hwrites : (env.console flags).writes (.table (l.table ir)) =
        [Json.write (l.table ir).records].map .add := by
      simp [Console.writes, hformat]
    have hdisplays : (Script.mk [.table (l.table ir)] (.exit 0)).displays.flatMap
        (env.console flags).writes = [Json.write (l.table ir).records].map .add := by
      rw [List.flatMap_singleton, hwrites]
    have hall := Console.writeAll_add_screen hscreen env.started [Json.write (l.table ir).records]
    rw [Task.script_prints ht]
    by_cases hbytes : Text.Encodable (l.text ir)
    · have htext : Text.Encodable (Json.write (l.table ir).records) :=
        Console.encodable_ended.mp hbytes
      rw [Console.arrived_cons htext, Console.halted_cons htext] at hall
      rw [perform_after hresolves.asides ((congrArg _ hdisplays).trans hall) rfl, if_pos hbytes]
      refine ⟨rfl, fun _ => ?_, fun hnot => absurd ⟨hlisted, hbytes⟩ hnot⟩
      simp [Console.arrived, Console.ended, started, Table.records, Listing.text, Listing.records]
    · have htext : ¬ Text.Encodable (Json.write (l.table ir).records) :=
        fun h => hbytes (Console.encodable_ended.mpr h)
      rw [Console.arrived_cons_of_not htext, Console.halted_cons_of_not htext] at hall
      rw [perform_unwritten rfl (Console.writes_asides _ hresolves.asides)
        ((congrArg _ hwrites).trans hall), if_neg hbytes]
      exact ⟨rfl, fun hprinted => absurd hprinted.bytes hbytes, fun _ => String.empty_append⟩
  · have hnil : l.records ir = [] := by
      by_contra hne
      exact hnot (Or.inl hne)
    rw [hscript, perform_after hresolves.asides (t := env.started) rfl rfl,
      if_pos (Listing.encodable_text_of_nil hnil)]
    exact ⟨rfl, fun hprinted => absurd hprinted.listed hnot, fun _ => rfl⟩

/-- What a run of the parser prints is read as the resolved document. -/
theorem parse_read_back {room : Nat} (hroom : 71 ≤ room)
    (hrun : Invocation.ofWords words = .run flags c) (hresolves : c.Resolves env shown ir)
    {strict : Bool} (htask : c.task = .parse strict)
    (hscreen : (env.console flags).outputFile = none) (hformat : (env.console flags).format ≠ .rich)
    (hbytes : Text.Encodable ir.text) : Json.read room (env.run words).stdout = .ok ir.encode := by
  have hwrite : env.CanWrite flags := by
    intro name hname
    rw [hscreen] at hname
    cases hname
  have htext := Console.documentText_eq_text (fun _ => hformat) ir
  rw [← htext] at hbytes
  have hdata := (run_brings hrun hresolves htask hwrite hbytes).data
  rw [hscreen, htext] at hdata
  cases hdata with
  | screen hout _ =>
    rw [hout]
    exact Json.read_line hresolves.textual hroom

def Lists (l : Listing) (task : Task) (d : Document) (mediaType : String) (ir : IR) : Prop :=
  IR.resolve d mediaType = .ok ir ∧ l.Printed task ir

theorem listing_cases {d : Document} {s : Settings} (hs : c.settings env = .ok s)
    (hd : c.loaded env s = .ok d) :
    (∃ shown ir, IR.resolve d s.mediaType = .ok ir ∧ c.Resolves env shown ir) ∨
      (∀ ir, IR.resolve d s.mediaType ≠ .ok ir) ∧ ∃ shown x, c.Breaks env shown x := by
  obtain ⟨es, hes⟩ := Graph.isMap_iff.mp (load_bringsMap _ _ _ _ d hd)
  rcases IR.resolveWithLog_map d s.mediaType es hes with ⟨-, hr⟩ | ⟨-, l, log, hr⟩
  · refine Or.inl ⟨_, _, ?_, .intro hs hd hr⟩
    rw [IR.resolve, hr]
    rfl
  · refine Or.inr ⟨fun ir hir => ?_, _, _, .resolution hs hd hr⟩
    rw [IR.resolve, hr] at hir
    cases hir

/-- What an inspection prints as JSON is read as JSON exactly when the document is resolved, there
is something to list or endpoints are asked for, and the records have bytes; else nothing is
printed. It ends well unless they have none. What is read is one list of records, each of them with
a cell for every header. They stand for the entries, in order, of the section of that name in
whatever a run of the parser prints for the same document. -/
theorem json_inspection_reads_iff {d : Document} {s : Settings} {room : Nat} (hroom : 71 ≤ room)
    (hrun : Invocation.ofWords words = .run flags c) (hlisting : c.task.listing? = some l)
    (hformat : (env.console flags).format = .json) (hscreen : (env.console flags).outputFile = none)
    (hs : c.settings env = .ok s) (hd : c.loaded env s = .ok d) :
    ((∃ v, Json.read room (env.run words).stdout = .ok v) ↔
      ∃ ir, Lists l c.task d s.mediaType ir) ∧
    ((¬ ∃ ir, Lists l c.task d s.mediaType ir) → (env.run words).stdout = "") ∧
    (∀ ir, IR.resolve d s.mediaType = .ok ir →
      (env.run words).exitCode = if Text.Encodable (l.text ir) then 0 else 1) ∧
    ∀ v, Json.read room (env.run words).stdout = .ok v → ∃ ir records,
      IR.resolve d s.mediaType = .ok ir ∧ v = .seq records ∧ records.length =
        (l.table ir).rows.length ∧
      ∀ (env' : Environment) (words' : List String) (flags' : Flags) (c' : Command) (s' : Settings)
        (strict : Bool), Invocation.ofWords words' = .run flags' c' → c'.task = .parse strict →
        (env'.console flags').outputFile = none → (env'.console flags').format ≠ .rich →
        c'.settings env' = .ok s' → c'.loaded env' s' = .ok d →
        ∃ ir', IR.resolve d s'.mediaType = .ok ir' ∧
          (Text.Encodable ir'.text → Json.read room (env'.run words').stdout = .ok ir'.encode) ∧
          (s.mediaType = s'.mediaType ∨
              (∀ es, d.graph.entries? d.root = some es → IR.BodiesWritten d es) →
            l.Agrees (l.table ir).headers records ir'.encode) := by
  have hempty : ∀ v, Json.read room "" ≠ .ok v := by
    intro v h
    cases h
  rcases listing_cases hs hd with ⟨shown, ir, hir, hresolves⟩ | ⟨hno, shown, x, hbreaks⟩
  · obtain ⟨hcode, hprinted, hnothing⟩ := run_listing hrun hlisting hformat hscreen hresolves
    have hunique : ∀ ir', IR.resolve d s.mediaType = .ok ir' → ir' = ir :=
      fun ir' hir' => Except.ok.inj (hir'.symm.trans hir)
    have hread : l.Printed c.task ir →
        Json.read room (env.run words).stdout = .ok (.seq (l.records ir)) := by
      intro hp
      rw [hprinted hp]
      exact Json.read_line (Listing.textual hlisting hp.listed) (by omega)
    have hlisted : ∀ v, Json.read room (env.run words).stdout = .ok v → l.Printed c.task ir := by
      intro v hv
      by_contra hnot
      rw [hnothing hnot] at hv
      exact hempty v hv
    refine ⟨⟨?_, ?_⟩, ?_, ?_, ?_⟩
    · rintro ⟨v, hv⟩
      exact ⟨ir, hir, hlisted v hv⟩
    · rintro ⟨ir', hir', hp⟩
      rw [hunique ir' hir'] at hp
      exact ⟨_, hread hp⟩
    · intro hnot
      exact hnothing fun hp => hnot ⟨ir, hir, hp⟩
    · intro ir' hir'
      rw [hunique ir' hir']
      exact hcode
    · intro v hv
      obtain rfl := Except.ok.inj (hv.symm.trans (hread (hlisted v hv)))
      refine ⟨ir, _, hir, rfl, List.length_map _, ?_⟩
      intro env' words' flags' c' s' strict hrun' htask' hscreen' hformat' hs' hd'
      obtain ⟨es, hes⟩ := Graph.isMap_iff.mp (load_bringsMap _ _ _ _ d hd)
      obtain ⟨ir', hir'⟩ := IR.resolve_mediaType hir s'.mediaType
      obtain ⟨log, hlog⟩ := IR.exists_log hir'
      refine ⟨ir', hir', ?_, fun hsame => Listing.agrees hlisting ?_⟩
      · exact parse_read_back hroom hrun' (.intro hs' hd' hlog) htask' hscreen' hformat'
      · rcases hsame with hsame | hw
        · rw [hsame] at hir
          rw [Except.ok.inj (hir.symm.trans hir')]
          exact .refl ir'
        · exact IR.equalButBodies_of_written hir hir' hes (hw es hes)
  · have hstdout : (env.run words).stdout = "" := (run_breaks hrun hbreaks).1.stdout
    rw [hstdout]
    refine ⟨⟨?_, ?_⟩, fun _ => rfl, fun ir hir => absurd hir (hno ir), ?_⟩
    · rintro ⟨v, hv⟩
      exact absurd hv (hempty v)
    · rintro ⟨ir, hir, -⟩
      exact absurd hir (hno ir)
    · intro v hv
      exact absurd hv (hempty v)

def petJsonFlags : Flags := { petFlags with json := true }

def petModelsWords : List String := ["--json", "inspect", "models", "-"]

theorem pet_models_read_as_json :
    Invocation.ofWords petModelsWords = .run petJsonFlags petCommand ∧ ∃ records whole,
      Json.read 900 ((petEnvironment "A good dog").run petModelsWords).stdout = .ok (.seq records) ∧
      Json.read 900 ((petEnvironment "A good dog").run ["parse", "-"]).stdout = .ok whole ∧
      Listing.Agrees ⟨Inspect.models, "models", [("Model", "name")]⟩
        ["Model", "Properties", "Description"] records whole := by
  have hrun : Invocation.ofWords petModelsWords = .run petJsonFlags petCommand := by decide +kernel
  have hrun' : Invocation.ofWords ["parse", "-"] = .run petFlags petParse := by decide +kernel
  have hjson : ((petEnvironment "A good dog").console petJsonFlags).format = .json := by
    decide +kernel
  have hplain : ((petEnvironment "A good dog").console petFlags).format ≠ .rich := by decide +kernel
  have hsettings : Settings.resolve 900 "/work" .empty [] .none = .ok .standard := by decide +kernel
  have hloaded : petCommand.loaded (petEnvironment "A good dog") .standard =
      .ok (petDocument "A good dog") := by decide +kernel
  have hok : (IR.resolve (petDocument "A good dog") "application/json").toOption.map
      (fun ir => (ir.models.isEmpty, (Json.writeValue 0 (.seq (Listing.records
        ⟨Inspect.models, "models", [("Model", "name")]⟩ ir))).any Text.isHalf,
        (Json.writeValue 0 ir.encode).any Text.isHalf)) = some (false, false, false) := by
    decide +kernel
  obtain ⟨ir, hir, hparts⟩ := IR.exists_of_toOption hok
  obtain ⟨hsome, hparts⟩ := Prod.mk.inj hparts
  obtain ⟨hcells, hchars⟩ := Prod.mk.inj hparts
  have hmodels : ir.models ≠ [] := List.isEmpty_eq_false_iff.mp hsome
  obtain ⟨hiff, -, -, hall⟩ := json_inspection_reads_iff (by decide : 71 ≤ 900) hrun rfl hjson rfl
    hsettings hloaded
  obtain ⟨v, hv⟩ := hiff.mpr
    ⟨ir, hir, Or.inl (by simpa [Listing.records, Inspect.models] using hmodels),
    Console.encodable_ended.mpr (Json.encodable_write.mpr hcells)⟩
  obtain ⟨ir', records, hir', rfl, -, hparse⟩ := hall v hv
  obtain ⟨ir'', hir'', hwhole, hagrees⟩ :=
    hparse _ _ _ _ _ _ hrun' rfl rfl hplain hsettings hloaded
  obtain rfl := Except.ok.inj (hir.symm.trans hir'')
  exact ⟨hrun, records, ir.encode, hv,
    hwhole (Console.encodable_ended.mpr (Json.encodable_write.mpr hchars)), hagrees (Or.inl rfl)⟩

/-- A document without diagnostics has an empty list of them, and its inspection prints no JSON. -/
theorem pet_diagnostics_not_json :
    Invocation.ofWords ["--json", "inspect", "diagnostics", "-"] =
      .run petJsonFlags ⟨"-", none, none, .diagnostics⟩ ∧
    ((petEnvironment "A good dog").console petJsonFlags).format = .json ∧
    (∃ shown, petCommand.Resolves (petEnvironment "A good dog") shown (petIR "A good dog")) ∧
    (petIR "A good dog").diagnostics = [] ∧
    ((petEnvironment "A good dog").run ["--json", "inspect", "diagnostics", "-"]).stdout = "" ∧
    ∀ room v, Json.read room
      ((petEnvironment "A good dog").run ["--json", "inspect", "diagnostics", "-"]).stdout ≠
      .ok v := by
  have hempty :
      ((petEnvironment "A good dog").run ["--json", "inspect", "diagnostics", "-"]).stdout =
      "" := by
    decide +kernel
  refine ⟨by decide +kernel, by decide +kernel, pet_resolves (by decide +kernel)
    (by decide +kernel),
    by decide +kernel, hempty, fun room v hv => ?_⟩
  rw [hempty] at hv
  cases hv

end Environment

end OpenApiIR
