import OpenApiIR.Proofs.EncodedIR
import OpenApiIR.Proofs.FileFrame
import OpenApiIR.Proofs.Redirection

/-! Output files over several runs. A document takes the place of what the file held; a table is
added at its end. Main statement: what a file holds after any number of runs of one command line,
whatever it held before the first. -/

namespace OpenApiIR

namespace Task

/-- Do the data take the place of what a file holds? -/
def replaces : Task → Bool
  | .parse _ => true
  | _ => false

/-- The text that a task leaves in a file for a resolved document. It is empty where it has no
bytes. -/
inductive Leaves (ir : IR) (f : Format) : Task → String → Prop where
  | document {strict : Bool} : Leaves ir f (.parse strict)
      (String.join ((Console.arrived [Json.write ir.encode]).map Console.closed))
  | table {task : Task} {t : Table} : Prints ir task t →
      Leaves ir f task (String.join ((Console.arrived (t.texts f)).map Console.closed))

/-- What a file holds once a text has come to it a number of times, which is not 0. -/
def heldAfter (task : Task) (before : List UInt8) (text : String) (times : Nat) : List UInt8 :=
  if task.replaces then text.toUTF8.toList
  else before ++ (List.replicate times text.toUTF8.toList).flatten

theorem heldAfter_heldAfter (task : Task) (before : List UInt8) (text : String) (n : Nat) :
    task.heldAfter (task.heldAfter before text n) text 1 = task.heldAfter before text (n + 1) := by
  unfold heldAfter
  cases task.replaces with
  | true => rfl
  | false => simp [List.replicate_succ', List.append_assoc]

theorem Prints.not_replaces {ir : IR} {task : Task} {t : Table} (h : Prints ir task t) :
    task.replaces = false := by
  cases h <;> rfl

theorem spells_arrived {v : Value} (hv : Json.Textual 71 v)
    (hfeed : ¬ Console.EndsInFeed (Json.write v)) {text : String}
    (htext : text = String.join ((Console.arrived [Json.write v]).map Console.closed))
    (hne : text ≠ "") : Json.Spells 71 text v := by
  by_cases hbytes : Text.Encodable (Json.write v)
  · have hline : text = Json.write v ++ "\n" := by
      rw [htext, Console.arrived_cons hbytes, List.map_cons, Console.closed_of_not_endsInFeed hfeed]
      simp [Console.arrived, Console.ended]
    rw [hline]
    exact Json.spells_write hv hbytes
  · rw [Console.arrived_cons_of_not hbytes] at htext
    exact absurd htext hne

theorem Leaves.spells {ir : IR} {f : Format} {task : Task} {text : String}
    (h : Leaves ir f task text) (hir : Json.Textual 71 ir.encode)
    (hjson : f = .json ∨ task.replaces = true) (hne : text ≠ "") :
    ∃ v, Json.Spells 71 text v := by
  cases h with
  | document =>
    refine ⟨ir.encode, spells_arrived hir ?_ rfl hne⟩
    rw [Console.EndsInFeed, IR.encode, IR.encodeWith, Value.record, Json.getLast?_write_map]
    decide
  | @table _ t ht =>
    rw [ht.not_replaces] at hjson
    obtain rfl := hjson.resolve_right Bool.false_ne_true
    have hrecords := Table.textual_records ht.rectangular ht.headers_nodup
    refine ⟨t.records, spells_arrived (hrecords.mono (by decide)) ?_ rfl hne⟩
    rw [Console.EndsInFeed, Table.records, Json.getLast?_write_seq]
    decide

end Task

namespace Environment

variable {env : Environment} {words : List String} {flags : Flags} {c : Command}
variable {shown : List Display} {ir : IR} {name text : String} {place : Path}

/-- The same surroundings, but for one file. -/
def holding (env : Environment) (place : Path) (content : List UInt8) : Environment :=
  { env with world := { env.world with files := env.world.files.put place (.file content) } }

def next (env : Environment) (words : List String) : Environment :=
  { env with world := { env.world with files := (env.run words).files } }

/-- So many runs of one command line, each with the files that the one before has left. -/
def repeated (env : Environment) (words : List String) : Nat → Environment
  | 0 => env
  | n + 1 => (env.repeated words n).next words

theorem next_eq_holding (hrun : Invocation.ofWords words = .run flags c)
    (hfile : (env.console flags).outputFile = some name)
      (hformat : (env.console flags).format ≠ .rich)
    (hresolves : c.Resolves env shown ir)
    (hleaves : c.task.Leaves ir (env.console flags).format text)
    (hplace : env.world.files.writable name = .ok place) :
    env.next words = env.holding place (c.task.heldAfter (env.world.files.held place) text 1) := by
  have hfiles := (run_data env hrun).2
  have hheld : (env.run words).files =
      env.world.files.put place (.file (c.task.heldAfter (env.world.files.held place) text 1)) := by
    rw [hfiles, Command.writes_resolves hresolves]
    generalize htask : c.task = task at hleaves
    cases hleaves with
    | document =>
      rw [Task.script, Task.writes_parse, Console.writes_document hformat,
        Console.written_replace_file hfile hplace]
      rfl
    | @table _ t ht =>
      have hlines : (Script.mk [.table t] (.exit 0)).displays.flatMap (env.console flags).writes =
          (t.texts (env.console flags).format).map .add := by
        simp [Console.writes_table hformat]
      rw [Task.script_prints ht, hlines,
        Console.written_add_file hfile hplace (t.texts_ne_nil _), FileTree.extended, Task.heldAfter,
        ht.not_replaces]
      simp
  rw [next, hheld, holding]

/-- The files that a command reads are not the one that it writes. -/
structure ReadsElsewhere (env : Environment) (c : Command) (place : Path) : Prop where
  project : env.world.files.locate (.ofText ProjectFile.name) ≠ .ok place
  source : Source.ofText c.source = .file → env.world.files.locate (.ofText c.source) ≠ .ok place

theorem resolves_holding (h : c.Resolves env shown ir)
    (hplace : env.world.files.writable name = .ok place) (hreads : env.ReadsElsewhere c place)
    (content : List UInt8) :
    c.Resolves (env.holding place content) shown ir := by
  have hwrites := FileTree.writable_ok_iff.mp hplace
  cases h with
  | @intro s d _ _ hs hd hr =>
    have hsettings : c.settings (env.holding place content) = c.settings env := by
      simp only [Command.settings, Settings.resolve, ProjectFile.read, holding,
        FileTree.content?_put_of_ne hwrites hreads.project]
    have hloaded : c.loaded (env.holding place content) s = c.loaded env s := by
      unfold Command.loaded load loadWith holding
      cases hsource : Source.ofText c.source with
      | input => rfl
      | url => rfl
      | file =>
        simp only [Load.fromFile, FileTree.content?_put_of_ne hwrites (hreads.source hsource)]
    exact .intro (hsettings.trans hs) (hloaded.trans hd) hr

theorem holding_holding (env : Environment) (place : Path) (a b : List UInt8) :
    (env.holding place a).holding place b = env.holding place b := by
  simp only [holding, FileTree.put_put]

/-- Any number of runs: each finds the file as the one before has left it, and all else as it was.
-/
theorem repeated_eq_holding (hrun : Invocation.ofWords words = .run flags c)
    (hfile : (env.console flags).outputFile = some name)
      (hformat : (env.console flags).format ≠ .rich)
    (hresolves : c.Resolves env shown ir)
    (hleaves : c.task.Leaves ir (env.console flags).format text)
    (hplace : env.world.files.writable name = .ok place) (hreads : env.ReadsElsewhere c place)
    (n : Nat) :
    env.repeated words (n + 1) =
      env.holding place (c.task.heldAfter (env.world.files.held place) text (n + 1)) := by
  induction n with
  | zero => exact next_eq_holding hrun hfile hformat hresolves hleaves hplace
  | succ n ih =>
    let before := c.task.heldAfter (env.world.files.held place) text (n + 1)
    have hresolves' := resolves_holding hresolves hplace hreads before
    have hplace' : (env.holding place before).world.files.writable name = .ok place :=
      FileTree.writable_put hplace
    have hheld : (env.holding place before).world.files.held place = before :=
      FileTree.held_put _ _ _
    have hconsole : (env.holding place before).console flags = env.console flags := rfl
    have hstep := next_eq_holding hrun (hconsole ▸ hfile) (hconsole ▸ hformat) hresolves'
      (hconsole ▸ hleaves) hplace'
    rw [hheld, holding_holding, Task.heldAfter_heldAfter] at hstep
    rw [repeated, ih]
    exact hstep

/-- A command that writes anything writes the text of its task. -/
theorem leaves_of_writes (hresolves : c.Resolves env shown ir) {console : Console} (f : Format)
    (hdata : c.writes env console ≠ []) : ∃ text, c.task.Leaves ir f text := by
  rw [Command.writes_resolves hresolves] at hdata
  rcases c.task.script_writes console ir with hnothing | ⟨strict, htask, -⟩ | ⟨t, ht, -⟩
  · exact absurd hnothing hdata
  · rw [htask]
    exact ⟨_, .document⟩
  · exact ⟨_, .table ht⟩

/-- For a command, a resolved document and a format there is one text, and what an output file holds
after a run that writes data is that text, behind what the file held before unless the task replaces
it. So a run of the parser leaves the same whatever was there and however often it is repeated, and
a table is there once for each run. Written as JSON the text is a JSON text by itself, or empty
where it has no bytes. -/
theorem output_file_after_runs (c : Command) (ir : IR) {f : Format} (hf : f ≠ .rich) :
    ∃ text : String, ∀ (env : Environment) (words : List String) (flags : Flags)
      (shown : List Display)
      (name : String) (place : Path), Invocation.ofWords words = .run flags c →
      (env.console flags).outputFile = some name → (env.console flags).format = f →
      c.Resolves env shown ir → c.writes env (env.console flags) ≠ [] →
      env.world.files.writable name = .ok place →
      (f = .json ∨ c.task.replaces = true → text ≠ "" → ∃ v, Json.Spells 71 text v) ∧
      (env.next words).world.files.heldUnder name =
        c.task.heldAfter (env.world.files.heldUnder name) text 1 ∧
      (env.ReadsElsewhere c place → ∀ n, (env.repeated words (n + 1)).world.files.heldUnder name =
        c.task.heldAfter (env.world.files.heldUnder name) text (n + 1)) := by
  by_cases hsome : ∃ text, c.task.Leaves ir f text
  · obtain ⟨text, hleaves⟩ := hsome
    refine ⟨text, ?_⟩
    intro env words flags shown name place hrun hfile hformat hresolves _ hplace
    subst hformat
    rw [FileTree.heldUnder_of_writable hplace]
    refine ⟨fun hjson hne => hleaves.spells hresolves.textual hjson hne, ?_, fun hreads n => ?_⟩
    · rw [next_eq_holding hrun hfile hf hresolves hleaves hplace]
      exact FileTree.heldUnder_put hplace _
    · rw [repeated_eq_holding hrun hfile hf hresolves hleaves hplace hreads n]
      exact FileTree.heldUnder_put hplace _
  · refine ⟨"", ?_⟩
    intro env words flags shown name place _ _ _ hresolves hdata _
    exact absurd (leaves_of_writes hresolves f hdata) hsome

theorem pet_output_after_runs :
    Invocation.ofWords petOutputWords =
      .run { petFlags with output := some "pets.tsv" } petCommand ∧
    ∃ text : String,
      ((petEnvironment "A good dog").next petOutputWords).world.files.heldUnder "pets.tsv" =
        text.toUTF8.toList ∧
      ((petEnvironment "A good dog").repeated petOutputWords 3).world.files.heldUnder "pets.tsv" =
        (List.replicate 3 text.toUTF8.toList).flatten := by
  have hrun : Invocation.ofWords petOutputWords =
      .run { petFlags with output := some "pets.tsv" } petCommand := by decide +kernel
  have hfile : ((petEnvironment "A good dog").console
      { petFlags with output := some "pets.tsv" }).outputFile = some "pets.tsv" := by decide +kernel
  have hformat : ((petEnvironment "A good dog").console
      { petFlags with output := some "pets.tsv" }).format = .plain := by decide +kernel
  have hloaded : petCommand.loaded (petEnvironment "A good dog") .standard =
      .ok (petDocument "A good dog") := by decide +kernel
  have hdata : petCommand.writes (petEnvironment "A good dog")
      ((petEnvironment "A good dog").console { petFlags with output := some "pets.tsv" }) ≠ [] := by
    decide +kernel
  have hplace : (petEnvironment "A good dog").world.files.writable "pets.tsv" =
      .ok ⟨"", ["pets.tsv"]⟩ := by decide +kernel
  have hreads : (petEnvironment "A good dog").ReadsElsewhere petCommand ⟨"", ["pets.tsv"]⟩ :=
    ⟨by decide +kernel, fun hsource => by revert hsource; decide +kernel⟩
  have hempty : (petEnvironment "A good dog").world.files.heldUnder "pets.tsv" = [] := by
    decide +kernel
  obtain ⟨shown, hresolves⟩ := pet_resolves hloaded (by decide +kernel)
  obtain ⟨text, hall⟩ := output_file_after_runs petCommand (petIR "A good dog") (f := .plain)
    (by decide)
  obtain ⟨-, honce, hagain⟩ := hall _ _ _ shown _ _ hrun hfile hformat hresolves hdata hplace
  rw [hempty] at honce hagain
  refine ⟨hrun, text, ?_, hagain hreads 2⟩
  rw [honce]
  simp [Task.heldAfter, petCommand, Task.replaces]

def petText : String := "Model\tProperties\tDescription\nPet\t0\tA good dog\n"

def petJsonWords : List String := ["--json", "-o", "pets.json", "inspect", "models", "-"]

def petJson : String :=
  "[\n  \x7b\n    \"Model\": \"Pet\",\n    \"Properties\": \"0\",\n" ++
    "    \"Description\": \"A good dog\"\n  \x7d\n]\n"

/-- The table of a second run stands behind that of the first, and two JSON texts are not one. -/
theorem pet_output_depends_on_history :
    Invocation.ofWords petOutputWords =
      .run { petFlags with output := some "pets.tsv" } petCommand ∧
    ((petEnvironment "A good dog").repeated petOutputWords 1).world.files.heldUnder "pets.tsv" =
      petText.toUTF8.toList ∧
    ((petEnvironment "A good dog").repeated petOutputWords 2).world.files.heldUnder "pets.tsv" =
      (petText ++ petText).toUTF8.toList ∧
    petText.toUTF8.toList ≠ (petText ++ petText).toUTF8.toList ∧
    ((petEnvironment "A good dog").repeated petJsonWords 2).world.files.heldUnder "pets.json" =
      (petJson ++ petJson).toUTF8.toList ∧
    (Json.read 900 petJson).isOk = true ∧ (Json.read 900 (petJson ++ petJson)).isOk = false := by
  refine ⟨by decide +kernel, by decide +kernel, by decide +kernel, ?_, by decide +kernel,
    by decide +kernel, by decide +kernel⟩
  exact fun h => absurd (Text.bytes_inj.mp h) (by decide)

end Environment

end OpenApiIR
