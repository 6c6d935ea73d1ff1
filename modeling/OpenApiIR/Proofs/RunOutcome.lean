import OpenApiIR.Command.Run
import OpenApiIR.Proofs.Assembly
import OpenApiIR.Proofs.Loading
import OpenApiIR.Proofs.Showing

/-! How a run ends. Settings that are refused, a document that cannot be loaded and a model that is
not there leave no data: the standard output stays empty and every file as it was. A run of the
parser writes the resolved document once, whole, and a line for each diagnostic before it, unless a
limit breaks off the resolution or the text has no bytes. Main statement: which of these ends a
command line comes to, with its exit code, its data and its messages. -/

namespace OpenApiIR

namespace Json

theorem getLast?_bracket (opening closing : Char) (level : Nat) (parts : List (List Char)) :
    (bracket opening closing level parts).getLast? = some closing := by
  cases parts with
  | nil => rfl
  | cons part parts => simp [bracket, List.getLast?_cons, List.getLast?_append]

theorem getLast?_write_map (es : Entries) : (write (.map es)).toList.getLast? = some '\x7d' := by
  simp [write, writeValue, getLast?_bracket]

theorem encodable_write {v : Value} :
    Text.Encodable (write v) ↔ (writeValue 0 v).any Text.isHalf = false := by
  simp [Text.Encodable, write]

end Json

namespace Console

theorem closed_write_map (es : Entries) :
    closed (Json.write (.map es)) = Json.write (.map es) ++ "\n" := by
  simp [closed, Json.getLast?_write_map, ended]

/-- The text in which a document is shown: JSON, or what is drawn of it. -/
def documentText (c : Console) (v : Value) : String :=
  if c.format = .rich ∧ c.outputFile = none then c.draw (.document v) else ended (Json.write v)

theorem documentText_of_file {c : Console} {name : String} (h : c.outputFile = some name)
    (v : Value) : c.documentText v = Json.write v ++ "\n" := by
  simp [documentText, h, ended]

variable {c : Console} {t : Transcript} {v : Value}

theorem writeAll_document_screen (h : c.outputFile = none) (t : Transcript) (v : Value) :
    c.writeAll t (c.writes (.document v)) = print t (c.documentText v) := by
  by_cases hr : c.format = .rich <;> simp [writes, documentText, h, hr, writeAll_singleton, write]

theorem writeAll_document_file {name : String} (h : c.outputFile = some name) (t : Transcript)
    (v : Value) : c.writeAll t (c.writes (.document v)) =
      store t (t.files.overwrite name) (Json.write v) := by
  simp [writes, h, writeAll_singleton, write]

end Console

namespace Command

def settings (c : Command) (env : Environment) : Except (Failure ConfigError) Settings :=
  Settings.resolve env.world.room env.directory env.world.files env.vars c.overrides

def loaded (c : Command) (env : Environment) (s : Settings) : Loaded :=
  load env.world s.timeout s.followRedirects c.source

def opening (c : Command) (s : Settings) : List Display :=
  .debug ("Loading " ++ c.source ++ " (media type " ++ s.mediaType ++ ")") :: requestLog c.source s

/-- There is no document: what is shown by then, the message, and the exit code. -/
inductive Fails (c : Command) (env : Environment) : List Display → String → Nat → Prop where
  | settings {e : ConfigError} : c.settings env = .error (.reported e) → Fails c env [] e.message 1
  | load {s : Settings} {e : LoadError} : c.settings env = .ok s →
      c.loaded env s = .error (.reported e) → Fails c env (c.opening s) e.message 7

/-- There is a resolved document, and all that is shown by then. -/
inductive Resolves (c : Command) (env : Environment) : List Display → IR → Prop where
  | intro {s : Settings} {d : Document} {ir : IR} {log : List LogRecord} : c.settings env = .ok s →
      c.loaded env s = .ok d → IR.resolveWithLog d s.mediaType = .ok (ir, log) →
      Resolves c env (c.opening s ++ log.map .log) ir

/-- The settings or the document are out of reach in a way that no error stands for, or a limit
breaks off the resolution. -/
inductive Breaks (c : Command) (env : Environment) : List Display → Defect → Prop where
  | settings {x : Defect} : c.settings env = .error (.unforeseen x) → Breaks c env [] x
  | load {s : Settings} {x : Defect} : c.settings env = .ok s →
      c.loaded env s = .error (.unforeseen x) → Breaks c env (c.opening s) x
  | resolution {s : Settings} {d : Document} {l : Limit} {log : List LogRecord} :
      c.settings env = .ok s → c.loaded env s = .ok d →
      IR.resolveWithLog d s.mediaType = .error (.limit l log) →
      Breaks c env (c.opening s ++ log.map .log) (.limit l)

variable {c : Command} {env : Environment} {shown : List Display} {message : String} {code : Nat}
variable {ir : IR} {x : Defect}

theorem begins (c : Command) (env : Environment) :
    (∃ shown message code, c.Fails env shown message code) ∨ (∃ shown ir, c.Resolves env shown ir) ∨
      ∃ shown x, c.Breaks env shown x := by
  cases hs : c.settings env with
  | error f =>
    cases f with
    | reported e => exact Or.inl ⟨_, _, _, .settings hs⟩
    | unforeseen x => exact Or.inr (Or.inr ⟨_, x, .settings hs⟩)
  | ok s =>
    cases hd : c.loaded env s with
    | error f =>
      cases f with
      | reported e => exact Or.inl ⟨_, _, _, .load hs hd⟩
      | unforeseen x => exact Or.inr (Or.inr ⟨_, x, .load hs hd⟩)
    | ok d =>
      obtain ⟨es, he⟩ := Graph.isMap_iff.mp (load_bringsMap _ _ _ _ d hd)
      rcases IR.resolveWithLog_map d s.mediaType es he with ⟨-, hr⟩ | ⟨-, l, log, hr⟩
      · exact Or.inr (Or.inl ⟨_, _, .intro hs hd hr⟩)
      · exact Or.inr (Or.inr ⟨_, _, .resolution hs hd hr⟩)

theorem aside_of_opening (c : Command) (s : Settings) {d : Display} (h : d ∈ c.opening s) :
    d.IsAside := by
  rcases List.mem_cons.mp h with rfl | h
  · exact .debug
  · unfold requestLog at h
    split at h
    · cases h
    · rw [List.mem_singleton.mp h]
      exact .log

theorem aside_of_log {c : Command} {s : Settings} {log : List LogRecord} {d : Display}
    (h : d ∈ c.opening s ++ log.map .log) : d.IsAside := by
  rcases List.mem_append.mp h with h | h
  · exact aside_of_opening c s h
  · obtain ⟨r, -, rfl⟩ := List.mem_map.mp h
    exact .log

theorem Fails.asides (h : c.Fails env shown message code) : ∀ d ∈ shown, d.IsAside := by
  intro d hd
  cases h with
  | settings => cases hd
  | load => exact aside_of_opening c _ hd

theorem Resolves.asides (h : c.Resolves env shown ir) : ∀ d ∈ shown, d.IsAside := by
  intro d hd
  cases h with
  | intro => exact aside_of_log hd

theorem Breaks.asides (h : c.Breaks env shown x) : ∀ d ∈ shown, d.IsAside := by
  intro d hd
  cases h with
  | settings => cases hd
  | load => exact aside_of_opening c _ hd
  | resolution => exact aside_of_log hd

theorem script_fails (h : c.Fails env shown message code) :
    c.script env = (Script.failed message code).after shown := by
  cases h with
  | settings hs =>
    unfold settings at hs
    simp [script, hs, Script.after, ConfigError.exitCode, Script.failed]
  | load hs hd =>
    unfold settings at hs
    unfold loaded at hd
    simp [script, hs, scriptWith, hd, LoadError.exitCode, opening]

theorem script_resolves (h : c.Resolves env shown ir) :
    c.script env = (c.task.script ir).after shown := by
  cases h with
  | intro hs hd hr =>
    unfold settings at hs
    unfold loaded at hd
    simp [script, hs, scriptWith, hd, hr, Script.after, opening]

theorem script_breaks (h : c.Breaks env shown x) :
    c.script env = (Script.broken x).after shown := by
  cases h with
  | settings hs =>
    unfold settings at hs
    simp [script, hs, Script.after, Script.broken]
  | load hs hd =>
    unfold settings at hs
    unfold loaded at hd
    simp [script, hs, scriptWith, hd, Script.after, Script.broken, opening]
  | resolution hs hd hr =>
    unfold settings at hs
    unfold loaded at hd
    simp [script, hs, scriptWith, hd, hr, Script.after, Script.broken, opening]

end Command

namespace Environment

variable {env : Environment} {words : List String} {flags : Flags} {c : Command}

theorem run_command (h : Invocation.ofWords words = .run flags c) :
    env.run words = env.perform (env.console flags) (c.script env) := by
  rw [run, h, execute]

def started (env : Environment) : Transcript := ⟨"", "", env.world.files⟩

theorem writes_after {console : Console} {s : Script} {shown : List Display}
    (hshown : ∀ d ∈ shown, d.IsAside) :
    (s.after shown).displays.flatMap console.writes = s.displays.flatMap console.writes := by
  simp only [Script.after, List.flatMap_append, console.writes_asides hshown, List.nil_append]

/-- A script whose data can all be written runs to its end. What is shown before it holds no data.
-/
theorem perform_after {console : Console} {s : Script} {shown : List Display} {t : Transcript}
    {code : Nat} (hshown : ∀ d ∈ shown, d.IsAside)
    (hw : console.writeAll env.started (s.displays.flatMap console.writes) = (t, none))
    (he : s.ending = .exit code) : env.perform console (s.after shown) =
      ⟨code, t.stdout, t.stderr ++ console.report (shown ++ s.displays), t.files, none⟩ := by
  rw [← writes_after hshown] at hw
  have hall := Console.presentAll_written hw
  unfold started at hall
  rw [perform, hall]
  simp only [Script.after, he]
  rfl

def crashMessage (env : Environment) : String :=
  "Unexpected error. Debug log: " ++ (DataDirectory.crashLog env.dataDirectory env.time).text

theorem crash_noted (console : Console) (t : Transcript) (ds : List Display) (x : Defect) :
    env.crash console (t.noted (console.report ds)) x =
      ⟨1, t.stdout, t.stderr ++ console.report (ds ++ [.error env.crashMessage]), t.files,
        some (DataDirectory.crashLog env.dataDirectory env.time, x.description ++ "\n")⟩ := by
  unfold crash
  dsimp only
  rw [Console.present_eq, Console.report_append]
  simp only [Outcome.ofTranscript, Console.writes, Console.writeAll, Transcript.noted_noted]
  rfl

/-- A script that ends in a defect, with nothing written, or that meets one where it writes. -/
theorem perform_broken {console : Console} {shown : List Display} (x : Defect)
    (hshown : ∀ d ∈ shown, d.IsAside) : env.perform console ((Script.broken x).after shown) =
      ⟨1, "", console.report (shown ++ [.error env.crashMessage]), env.world.files,
        some (DataDirectory.crashLog env.dataDirectory env.time, x.description ++ "\n")⟩ := by
  have hw : console.writeAll env.started (shown.flatMap console.writes) = (env.started, none) := by
    rw [console.writes_asides hshown, Console.writeAll]
  have hall := Console.presentAll_written hw
  unfold started at hall
  simp only [perform, Script.after, Script.broken, List.append_nil, hall]
  rw [crash_noted, String.empty_append]

theorem perform_unwritten {console : Console} {s : Script} {before after : List Display}
    {d : Display} {t : Transcript} {x : Defect} (hs : s.displays = before ++ d :: after)
    (hw : before.flatMap console.writes = [])
    (hd : console.writeAll env.started (console.writes d) = (t, some x)) :
    env.perform console s =
      ⟨1, t.stdout, t.stderr ++
        console.report (before ++ [d] ++ [.error env.crashMessage]), t.files,
        some (DataDirectory.crashLog env.dataDirectory env.time, x.description ++ "\n")⟩ := by
  have hnone : console.writeAll env.started (before.flatMap console.writes) =
      (env.started, none) := by rw [hw, Console.writeAll]
  have hall := Console.presentAll_broken hnone hd after
  unfold started at hall
  simp only [perform, hs, hall]
  rw [crash_noted]

def CanWrite (env : Environment) (flags : Flags) : Prop :=
  ∀ name, (env.console flags).outputFile = some name →
    ∃ place, env.world.files.writable name = .ok place

end Environment

namespace Outcome

/-- The text is all the data that a run has written: it is what the output file holds, or what
stands on the standard output. No other file is changed. -/
inductive Wrote (o : Outcome) (before : FileTree) (text : String) : Option String → Prop where
  | screen : o.stdout = text → o.files = before → Wrote o before text none
  | file {name : String} {place : Path} : before.writable name = .ok place → o.stdout = "" →
      (∀ p, o.files.stored? p =
        if place = p then some (.file text.toUTF8.toList) else before.stored? p) →
      Wrote o before text (some name)

section

variable (o : Outcome) (env : Environment) (flags : Flags) (shown : List Display)

/-- What is shown beside the data, and before them only if there is a flag for more. -/
structure Reports (ds : List Display) : Prop where
  stderr : o.stderr = (env.console flags).report (shown ++ ds)
  asides : flags.verbose = false → o.stderr = (env.console flags).report ds

/-- The run ends in an error. There are no data, and every file is as it was. -/
structure Refuses (message : String) (code : Nat) : Prop where
  code : o.exitCode = code
  stdout : o.stdout = ""
  files : o.files = env.world.files
  reports : o.Reports env flags shown [.error message]
  plain : (env.console flags).hasColours = false →
    (env.console flags).report [.error message] = Console.plainLine ("Error: " ++ message)
  crashLog : o.crashLog = none

/-- The run ends in a defect, and its log is written. -/
structure Crashes (ds : List Display) (x : Defect) : Prop where
  code : o.exitCode = 1
  stdout : o.stdout = ""
  reports : o.Reports env flags shown (ds ++ [.error env.crashMessage])
  crashLog : o.crashLog =
    some (DataDirectory.crashLog env.dataDirectory env.time, x.description ++ "\n")

def warnings (ir : IR) : List Display := ir.diagnostics.map fun d => .warning d.text

def warningLine (d : Diagnostic) : String :=
  Console.plainLine ("Warning: " ++ d.kind.name ++ " " ++ d.subject ++ ": " ++ d.message)

def strictText (ir : IR) : String :=
  toString ir.diagnostics.length ++ " entries could not be resolved"

def complaint (strict : Bool) (ir : IR) : List Display :=
  if strict ∧ ir.diagnostics ≠ [] then [.error (strictText ir)] else []

/-- The run brings the resolved document, with a warning for each diagnostic. -/
structure Brings (strict : Bool) (ir : IR) : Prop where
  code : o.exitCode = if strict ∧ ir.diagnostics ≠ [] then 8 else 0
  data : o.Wrote env.world.files ((env.console flags).documentText ir.encode)
    (env.console flags).outputFile
  reports : o.Reports env flags shown (warnings ir ++ complaint strict ir)
  plain : (env.console flags).hasColours = false →
    (env.console flags).report (warnings ir ++ complaint strict ir) =
      String.join (ir.diagnostics.map warningLine) ++
        if strict ∧ ir.diagnostics ≠ [] then Console.plainLine ("Error: " ++ strictText ir) else ""
  crashLog : o.crashLog = none

end

theorem Reports.intro {o : Outcome} {env : Environment} {flags : Flags} {shown ds : List Display}
    (hshown : ∀ d ∈ shown, d.IsAside) (h : o.stderr = (env.console flags).report (shown ++ ds)) :
    o.Reports env flags shown ds where
  stderr := h
  asides hv := by
    rw [h, Console.report_append, Console.report_asides hv hshown, String.empty_append]

end Outcome

namespace Task

open Outcome

variable {console : Console} (strict : Bool) (ir : IR)

theorem report_warnings (h : console.hasColours = false) (ds : List Diagnostic) :
    console.report (ds.map fun d => .warning d.text) = String.join (ds.map warningLine) := by
  induction ds with
  | nil => rfl
  | cons d ds ih =>
    rw [List.map_cons, Console.report_cons, ih, Console.report_singleton]
    simp [Console.message, Console.line, h, Console.plainLine, warningLine, Diagnostic.text,
      String.append_assoc]

theorem report_plain (h : console.hasColours = false) :
    console.report (warnings ir ++ complaint strict ir) =
      String.join (ir.diagnostics.map warningLine) ++
        if strict ∧ ir.diagnostics ≠ [] then Console.plainLine ("Error: " ++ strictText ir)
        else "" := by
  rw [Console.report_append, warnings, report_warnings h, complaint]
  split
  · rw [Console.report_error h]
  · rfl

theorem displays_parse : (parseScript strict ir).displays =
    warnings ir ++ .document ir.encode :: complaint strict ir := by
  unfold parseScript complaint
  split
  · simp [Script.after, Script.failed, warnings, strictText]
  · rfl

theorem writes_warnings (console : Console) (ir : IR) :
    (warnings ir).flatMap console.writes = [] := by
  simp [warnings, Console.writes, List.flatMap_map]

theorem writes_complaint (console : Console) (strict : Bool) (ir : IR) :
    (complaint strict ir).flatMap console.writes = [] := by
  unfold complaint
  split <;> rfl

theorem writes_parse (console : Console) (strict : Bool) (ir : IR) :
    (parseScript strict ir).displays.flatMap console.writes =
    console.writes (.document ir.encode) := by
  rw [displays_parse, List.flatMap_append, List.flatMap_cons, writes_warnings, writes_complaint,
    List.nil_append, List.append_nil]

theorem report_parse (console : Console) (shown : List Display) (strict : Bool) (ir : IR) :
    console.report (shown ++ (parseScript strict ir).displays) =
      console.report (shown ++ (warnings ir ++ complaint strict ir)) := by
  have hdocument : console.report (.document ir.encode :: complaint strict ir) =
      console.report (complaint strict ir) := by
    rw [Console.report_cons]
    exact String.empty_append
  simp only [displays_parse, Console.report_append, hdocument]

theorem ending_parse : (parseScript strict ir).ending =
    .exit (if strict ∧ ir.diagnostics ≠ [] then 8 else 0) := by
  unfold parseScript
  split <;> rfl

end Task

namespace Environment

variable {env : Environment} {words : List String} {flags : Flags} {c : Command}
variable {shown : List Display} {ir : IR} {message : String} {code : Nat} {x : Defect}

theorem perform_refuses (hshown : ∀ d ∈ shown, d.IsAside) :
    (env.perform (env.console flags) ((Script.failed message code).after shown)).Refuses
      env flags shown message code := by
  rw [perform_after hshown (t := env.started) rfl rfl]
  refine ⟨rfl, rfl, rfl, .intro hshown String.empty_append, fun h => ?_, rfl⟩
  exact Console.report_error h message

theorem run_refuses (hrun : Invocation.ofWords words = .run flags c)
    (h : c.Fails env shown message code) :
    (env.run words).Refuses env flags shown message code := by
  rw [run_command hrun, Command.script_fails h]
  exact perform_refuses h.asides

theorem run_unknown_model (hrun : Invocation.ofWords words = .run flags c)
    (h : c.Resolves env shown ir) {name : String} (htask : c.task = .model name)
    (hname : ir.model? name = none) :
    (env.run words).Refuses env flags shown ("No model named '" ++ name ++ "'") 1 := by
  rw [run_command hrun, Command.script_resolves h, htask, Task.script, hname]
  exact perform_refuses h.asides

theorem run_breaks (hrun : Invocation.ofWords words = .run flags c) (h : c.Breaks env shown x) :
    (env.run words).Crashes env flags shown [] x ∧ (env.run words).files = env.world.files := by
  rw [run_command hrun, Command.script_breaks h, perform_broken x h.asides]
  exact ⟨⟨rfl, rfl, .intro h.asides rfl, rfl⟩, rfl⟩

/-- Where the text has bytes, the document is all that is written. -/
theorem write_document (ir : IR) (hw : env.CanWrite flags)
    (hbytes : Text.Encodable ((env.console flags).documentText ir.encode)) : ∃ t,
    (env.console flags).writeAll env.started ((env.console flags).writes (.document ir.encode)) =
        (t, none) ∧
    t.stderr = "" ∧ ∀ o : Outcome, o.stdout = t.stdout → o.files = t.files →
      o.Wrote env.world.files ((env.console flags).documentText ir.encode)
        (env.console flags).outputFile := by
  cases hfile : (env.console flags).outputFile with
  | none =>
    rw [Console.writeAll_document_screen hfile, Console.print_encodable hbytes]
    exact ⟨_, rfl, rfl, fun o ho hf => .screen (ho.trans String.empty_append) hf⟩
  | some name =>
    obtain ⟨place, hplace : env.started.files.writable name = .ok place⟩ := hw name hfile
    have htext := Console.documentText_of_file hfile ir.encode
    have hcontent : Console.content (Json.write ir.encode) =
        ((env.console flags).documentText ir.encode).toUTF8.toList := by
      rw [Console.content, htext]
      exact congrArg (·.toUTF8.toList) (Console.closed_write_map _)
    have hjson : Text.Encodable (Json.write ir.encode) := by
      rw [htext] at hbytes
      exact (Text.encodable_append.mp hbytes).1
    refine ⟨_, (Console.writeAll_document_file hfile _ _).trans
      (Console.store_encodable hjson (FileTree.overwrite_ok hplace _) _), rfl,
      fun o ho hf => .file hplace ho fun p => ?_⟩
    rw [hf, ← hcontent]
    exact FileTree.stored?_put ..

/-- Where it has none, nothing is, and a file that was to hold it is left empty. -/
theorem write_no_document (ir : IR) (hw : env.CanWrite flags)
    (hbytes : ¬ Text.Encodable ((env.console flags).documentText ir.encode)) : ∃ t,
    (env.console flags).writeAll env.started ((env.console flags).writes (.document ir.encode)) =
        (t, some .unencodable) ∧
    t.stdout = "" ∧ t.stderr = "" ∧ ∀ o : Outcome, o.stdout = "" → o.files = t.files →
      o.Wrote env.world.files "" (env.console flags).outputFile := by
  cases hfile : (env.console flags).outputFile with
  | none =>
    rw [Console.writeAll_document_screen hfile, Console.print_unencodable hbytes]
    exact ⟨_, rfl, rfl, rfl, fun o ho hf => .screen ho hf⟩
  | some name =>
    obtain ⟨place, hplace : env.started.files.writable name = .ok place⟩ := hw name hfile
    have htext := Console.documentText_of_file hfile ir.encode
    have hjson : ¬ Text.Encodable (Json.write ir.encode) := by
      intro h
      apply hbytes
      rw [htext]
      exact Console.encodable_ended.mpr h
    refine ⟨_, (Console.writeAll_document_file hfile _ _).trans
      (Console.store_unencodable hjson (FileTree.overwrite_ok hplace _) _), rfl, rfl,
      fun o ho hf => .file hplace ho fun p => ?_⟩
    rw [hf, Text.bytes_empty]
    exact FileTree.stored?_put ..

theorem run_brings (hrun : Invocation.ofWords words = .run flags c) (h : c.Resolves env shown ir)
    {strict : Bool} (htask : c.task = .parse strict) (hw : env.CanWrite flags)
    (hbytes : Text.Encodable ((env.console flags).documentText ir.encode)) :
    (env.run words).Brings env flags shown strict ir := by
  -- The one write of the document is the only one, so all that can still fail comes before it.
  obtain ⟨t, ht, hnone, hdata⟩ := write_document ir hw hbytes
  rw [run_command hrun, Command.script_resolves h, htask, Task.script,
    perform_after h.asides ((congrArg _ (Task.writes_parse _ strict ir)).trans ht)
      (Task.ending_parse strict ir)]
  refine ⟨rfl, hdata _ rfl rfl, .intro h.asides ?_, Task.report_plain strict ir, rfl⟩
  rw [hnone, String.empty_append, Task.report_parse]

/-- A document whose text has no bytes is lost, after the warnings. -/
theorem run_loses (hrun : Invocation.ofWords words = .run flags c) (h : c.Resolves env shown ir)
    {strict : Bool} (htask : c.task = .parse strict) (hw : env.CanWrite flags)
    (hbytes : ¬ Text.Encodable ((env.console flags).documentText ir.encode)) :
    (env.run words).Crashes env flags shown (Outcome.warnings ir) .unencodable ∧
      (env.run words).Wrote env.world.files "" (env.console flags).outputFile := by
  obtain ⟨t, ht, hstdout, hstderr, hdata⟩ := write_no_document ir hw hbytes
  have hdisplays : ((Task.parseScript strict ir).after shown).displays =
      (shown ++ Outcome.warnings ir) ++ .document ir.encode :: Outcome.complaint strict ir := by
    rw [Script.after, Task.displays_parse, List.append_assoc]
  have hwrites : (shown ++ Outcome.warnings ir).flatMap (env.console flags).writes = [] := by
    rw [List.flatMap_append, Console.writes_asides _ h.asides, Task.writes_warnings,
      List.append_nil]
  have hdocument : (env.console flags).report [.document ir.encode] = "" := rfl
  rw [run_command hrun, Command.script_resolves h, htask, Task.script,
    perform_unwritten hdisplays hwrites ht]
  refine ⟨⟨rfl, hstdout, .intro h.asides ?_, rfl⟩, hdata _ hstdout rfl⟩
  simp only [hstderr, Console.report_append, hdocument, String.empty_append, String.append_empty,
    String.append_assoc]

/-- A document on the standard input, one of whose path items is no map, and a file in its way. -/
def strictEnvironment : Environment where
  world := {
    files := ⟨[(⟨"", ["ir.json"]⟩, .file [104, 105])]⟩
    input := .ok "\x7b\"openapi\": \"3.0.0\", \"paths\": \x7b\"/a\": 3\x7d\x7d"
    network := fun _ => .failure "none"
    room := 900 }
  vars := []
  directory := "/work"
  home := "/home/user"
  system := "Linux"
  time := "20240101-000000"
  terminal := false
  draw := fun _ => ""

def strictDocument : Document :=
  .ofTree (.map [(.str "openapi", .str "3.0.0"), (.str "paths", .map [(.str "/a", .int 3)])])

def strictFlags : Flags := ⟨false, false, false, true, false, some "ir.json"⟩

def strictCommand : Command := ⟨"-", none, none, .parse true⟩

/-- A document in a file, whose title is half of a surrogate pair. -/
def halfEnvironment : Environment where
  world := {
    files := ⟨[(⟨"", ["m.json"]⟩, .file
      "\x7b\"openapi\":\"3.0.0\",\"info\":\x7b\"title\":\"\\ud800\"\x7d\x7d".toUTF8.toList)]⟩
    input := .ok ""
    network := fun _ => .failure "none"
    room := 900 }
  vars := []
  directory := "/work"
  home := "/home/user"
  system := "Linux"
  time := "20240101-000000"
  terminal := false
  draw := fun _ => ""

def halfDocument : Document := .ofTree (.map [(.str "openapi", .str "3.0.0"),
  (.str "info", .map [(.str "title", .str (.singleton (Text.ofCodePoint 0xD800)))])])

def halfFlags : Flags := ⟨false, false, false, false, false, some "out.json"⟩

def halfCommand : Command := ⟨"m.json", none, none, .parse false⟩

end Environment

end OpenApiIR
