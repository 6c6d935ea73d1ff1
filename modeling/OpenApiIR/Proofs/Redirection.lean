import OpenApiIR.Proofs.RunData
import OpenApiIR.Proofs.Utf8Text

/-! Data that go to a file in place of the standard output. On the screen every text gets a line
feed of its own, in a file only one that does not end in a line feed. Main statement: a new file
holds what would have been printed exactly when it can be written and no row of a plain table that
is printed ends in a line feed. -/

namespace OpenApiIR

namespace Json

theorem getLast?_write_seq (items : List Value) :
    (write (.seq items)).toList.getLast? = some ']' := by
  simp [write, writeValue, getLast?_bracket]

end Json

namespace Console

def EndsInFeed (text : String) : Prop := text.toList.getLast? = some '\n'

instance (text : String) : Decidable (EndsInFeed text) :=
  inferInstanceAs (Decidable (text.toList.getLast? = some '\n'))

theorem closed_of_not_endsInFeed {text : String} (h : ¬ EndsInFeed text) :
    closed text = ended text :=
  if_neg h

theorem length_closed (text : String) : (closed text).length ≤ (ended text).length ∧
    ((closed text).length = (ended text).length → ¬ EndsInFeed text) := by
  have hended : (ended text).length = text.length + 1 := by
    rw [ended, String.length_append]
    rfl
  by_cases h : EndsInFeed text
  · have hclosed : closed text = text := if_pos h
    rw [hclosed]
    exact ⟨by omega, fun heq => by omega⟩
  · rw [closed_of_not_endsInFeed h]
    exact ⟨Nat.le_refl _, fun _ => h⟩

/-- Every text that ends in a line feed makes what is in the file shorter than what is on the
screen. -/
theorem length_join_closed (texts : List String) :
    (String.join (texts.map closed)).length ≤ (String.join (texts.map ended)).length ∧
    ((String.join (texts.map closed)).length = (String.join (texts.map ended)).length →
      ∀ text ∈ texts, ¬ EndsInFeed text) := by
  induction texts with
  | nil =>
    refine ⟨Nat.le_refl _, ?_⟩
    intro _ text htext
    cases htext
  | cons first rest ih =>
    obtain ⟨hle, hopen⟩ := length_closed first
    obtain ⟨hrest, hall⟩ := ih
    simp only [List.map_cons, String.join_cons, String.length_append]
    refine ⟨by omega, fun heq text htext => ?_⟩
    rcases List.mem_cons.mp htext with rfl | htext
    · exact hopen (by omega)
    · exact hall (by omega) text htext

theorem join_closed_eq_iff {texts : List String} :
    String.join (texts.map closed) = String.join (texts.map ended) ↔
      ∀ text ∈ texts, ¬ EndsInFeed text := by
  constructor
  · intro h
    exact (length_join_closed texts).2 (congrArg String.length h)
  · intro h
    rw [List.map_congr_left fun text htext => closed_of_not_endsInFeed (h text htext)]

theorem join_ended_eq_empty_iff {texts : List String} :
    String.join (texts.map ended) = "" ↔ texts = [] := by
  constructor
  · intro hempty
    by_contra hne
    obtain ⟨first, rest, rfl⟩ := List.exists_cons_of_ne_nil hne
    have hchars := congrArg String.toList hempty
    simp [ended] at hchars
  · rintro rfl
    rfl

end Console

namespace Table

variable {t : Table}

/-- The rows that are shown: all before the first with a cell that has no bytes. -/
def shownRows (t : Table) : List (List String) :=
  t.rows.takeWhile fun row => ∀ cell ∈ row, Text.Encodable cell

/-- No row that is shown ends in a line feed, however many its other cells hold. -/
def EndsInText (t : Table) : Prop :=
  ∀ row ∈ t.shownRows, ∀ cell, row.getLast? = some cell → ¬ Console.EndsInFeed cell

theorem arrived_lines (h : ∀ cell ∈ t.headers, Text.Encodable cell) :
    Console.arrived t.lines = line t.headers :: t.shownRows.map line := by
  have hrows : ∀ row, (decide (Text.Encodable (line row))) =
      decide (∀ cell ∈ row, Text.Encodable cell) := by
    intro row
    simp only [encodable_line]
  rw [lines, List.map_cons, Console.arrived_cons (encodable_line.mpr h), Console.arrived,
    List.takeWhile_map, shownRows]
  simp only [Function.comp_def, hrows]

theorem endsInFeed_line {cells : List String} {last : String} (h : cells.getLast? = some last) :
    Console.EndsInFeed (line cells) ↔ Console.EndsInFeed last := by
  unfold Console.EndsInFeed
  induction cells with
  | nil => cases h
  | cons cell rest ih =>
    cases rest with
    | nil =>
      obtain rfl : cell = last := by simpa using h
      simp [line_chars]
    | cons next rest =>
      have hrest := ih (by simpa using h)
      rw [line_chars] at hrest ⊢
      rw [← hrest, List.map_cons, List.map_cons, List.intercalate_cons_cons, ← List.map_cons]
      -- Behind a tab there is the end of the line, or the tab itself, which is no line feed.
      cases hchars : ['\t'].intercalate ((next :: rest).map String.toList) with
      | nil => simp
      | cons c cs => simp [List.getLast?_append]

def Clear (cells : List String) : Prop :=
  ∀ cell ∈ cells, Text.Encodable cell ∧ ¬ Console.EndsInFeed cell

instance (cells : List String) : Decidable (Clear cells) :=
  inferInstanceAs (Decidable (∀ cell ∈ cells, _ ∧ _))

theorem lines_endInText_iff (hne : ∀ row ∈ t.allRows, row ≠ []) (hheaders : Clear t.headers) :
    (∀ text ∈ Console.arrived t.lines, ¬ Console.EndsInFeed text) ↔ t.EndsInText := by
  rw [arrived_lines fun cell hcell => (hheaders cell hcell).1]
  constructor
  · intro h row hrow cell hcell hfeed
    have hmem : line row ∈ t.shownRows.map line := List.mem_map_of_mem hrow
    exact h _ (List.mem_cons_of_mem _ hmem) ((endsInFeed_line hcell).mpr hfeed)
  · intro h text htext hfeed
    rcases List.mem_cons.mp htext with rfl | htext
    · have hlast := List.getLast?_eq_some_getLast (hne _ List.mem_cons_self)
      exact (hheaders _ (List.mem_of_getLast? hlast)).2 ((endsInFeed_line hlast).mp hfeed)
    · obtain ⟨row, hrow, rfl⟩ := List.mem_map.mp htext
      have hmem : row ∈ t.rows := (List.takeWhile_prefix _).subset hrow
      have hlast := List.getLast?_eq_some_getLast (hne row (List.mem_cons_of_mem _ hmem))
      exact h row hrow _ hlast ((endsInFeed_line hlast).mp hfeed)

end Table

namespace Task

variable {ir : IR} {task : Task} {t : Table} {f : Format}

theorem Prints.headers_clear (h : Prints ir task t) : Table.Clear t.headers := by
  cases h with
  | models => exact (by decide : Table.Clear ["Model", "Properties", "Description"])
  | model => exact (by decide : Table.Clear ["Property", "Type", "Required", "Description"])
  | endpoints =>
    exact (by decide : Table.Clear ["Method", "Path", "Operation", "Body", "Responses"])
  | diagnostics => exact (by decide : Table.Clear ["Kind", "Subject", "Message"])

theorem Prints.texts_endInText_iff (h : Prints ir task t) (hf : f ≠ .rich) :
    (∀ text ∈ Console.arrived (t.texts f), ¬ Console.EndsInFeed text) ↔
      (f = .plain → t.EndsInText) := by
  cases f with
  | json =>
    refine ⟨fun _ hplain => (by cases hplain), fun _ text htext => ?_⟩
    have hmem : text ∈ t.texts .json := (List.takeWhile_prefix _).subset htext
    rw [Table.texts, List.mem_singleton] at hmem
    rw [hmem, Console.EndsInFeed, Table.records, Json.getLast?_write_seq]
    decide
  | plain =>
    have hlines := Table.lines_endInText_iff h.rectangular.row_ne_nil h.headers_clear
    exact ⟨fun htexts _ => hlines.mp htexts, fun himp => hlines.mpr (himp rfl)⟩
  | rich => exact absurd rfl hf

end Task

namespace Console

variable {c : Console} {files : FileTree} {name : String} {e : FileError} {place : Path}

def redirected (c : Console) (name : String) : Console := { c with outputFile := some name }

theorem writes_redirected (h : c.format ≠ .rich) (name : String) :
    (c.redirected name).writes = c.writes := by
  funext d
  cases d with
  | document v => rw [writes_document h, writes_document (c := c.redirected name) h]
  | _ => rfl

theorem held_of_missing (hmissing : files.find (Path.ofText name) = .error e)
    (hplace : files.writable name = .ok place) : files.held place = [] := by
  rw [← FileTree.heldUnder_of_writable hplace, FileTree.heldUnder_of_missing hmissing]

/-- Writes that bring these texts: each that arrives is closed, in its own way on the screen and in
a new file. -/
structure Brings (c : Console) (name : String) (files : FileTree) (ws : List Write)
    (texts : List String) : Prop where
  screen : c.written files ws = ⟨String.join ((arrived texts).map ended), "", files⟩
  stdout {place : Path} : files.writable name = .ok place →
    ((c.redirected name).written files ws).stdout = ""
  file {place : Path} : files.writable name = .ok place →
    ((c.redirected name).written files ws).files.heldUnder name =
      (String.join ((arrived texts).map closed)).toUTF8.toList
  toFile : ∀ w ∈ ws, ∀ text, w ≠ .screen text

theorem brings_add (hscreen : c.outputFile = none)
    (hmissing : files.find (Path.ofText name) = .error e) {texts : List String} (hne : texts ≠ []) :
    c.Brings name files (texts.map .add) texts := by
  have hfile : (c.redirected name).outputFile = some name := rfl
  refine ⟨written_add_screen hscreen texts, fun hplace => ?_, fun hplace => ?_, by simp⟩
  · rw [written_add_file hfile hplace hne]
  · rw [written_add_file hfile hplace hne, FileTree.extended, held_of_missing hmissing hplace,
      List.nil_append]
    exact FileTree.heldUnder_put hplace _

theorem brings_replace (hscreen : c.outputFile = none) (text : String) :
    c.Brings name files [.replace text] [text] := by
  have hfile : (c.redirected name).outputFile = some name := rfl
  refine ⟨written_replace_screen hscreen text, fun hplace => ?_, fun hplace => ?_, by simp⟩
  · rw [written_replace_file hfile hplace]
  · rw [written_replace_file hfile hplace]
    exact FileTree.heldUnder_put hplace _

/-- What is printed and what a new file holds are the same exactly when nothing is printed, or the
file can be written and no text that is printed ends in a line feed. -/
theorem Brings.redirected_iff {ws : List Write} {texts : List String}
    (h : c.Brings name files ws texts) (hmissing : files.find (Path.ofText name) = .error e) :
    ((c.redirected name).written files ws).stdout = "" ∧
    (((c.redirected name).written files ws).files.heldUnder name =
        (c.written files ws).stdout.toUTF8.toList ↔
      ((c.written files ws).stdout ≠ "" → (∃ place, files.writable name = .ok place) ∧
        ∀ text ∈ arrived texts, ¬ EndsInFeed text)) := by
  rw [h.screen]
  dsimp only
  by_cases hw : ∃ place, files.writable name = .ok place
  · obtain ⟨place, hplace⟩ := hw
    refine ⟨h.stdout hplace, ?_⟩
    rw [h.file hplace, Text.bytes_inj, join_closed_eq_iff, ne_eq, join_ended_eq_empty_iff]
    constructor
    · intro hall _
      exact ⟨⟨place, hplace⟩, hall⟩
    · intro himp text htext
      exact (himp (List.ne_nil_of_mem htext)).2 text htext
  -- Where a new file cannot be written there is none, and the standard output stays empty all the
  -- same.
  · have hfile : (c.redirected name).outputFile = some name := rfl
    rw [written_unwritable hfile (fun place hplace => hw ⟨place, hplace⟩) h.toFile,
      FileTree.heldUnder_of_missing hmissing]
    refine ⟨rfl, ?_⟩
    constructor
    · intro hempty hprinted
      exact absurd (Text.bytes_eq_nil_iff.mp hempty.symm) hprinted
    · intro himp
      by_contra hprinted
      exact hw (himp fun hempty => hprinted (Text.bytes_eq_nil_iff.mpr hempty).symm).1

end Console

/-- What a command delivers is printed and redirected alike exactly in these cases: nothing is
printed; or the file can be written, and what is printed is no plain table with a row that ends in a
line feed. -/
theorem Command.Delivers.redirected_iff {c : Command} {env : Environment} {console : Console}
    {ws : List Write} (h : c.Delivers env console ws) {files : FileTree} {name : String}
      {e : FileError}
    (hscreen : console.outputFile = none) (hformat : console.format ≠ .rich)
    (hmissing : files.find (Path.ofText name) = .error e) :
    ((console.redirected name).written files ws).stdout = "" ∧
    (((console.redirected name).written files ws).files.heldUnder name =
        (console.written files ws).stdout.toUTF8.toList ↔
      ((console.written files ws).stdout ≠ "" → (∃ place, files.writable name = .ok place) ∧
        (console.format = .plain → ∀ shown ir t, c.Resolves env shown ir → c.task.Prints ir t →
          t.EndsInText))) := by
  cases h with
  | nothing =>
    refine ⟨rfl, fun _ h => absurd rfl h, fun _ => ?_⟩
    exact (FileTree.heldUnder_of_missing hmissing).trans Text.bytes_empty.symm
  | @document _ ir _ _ htask =>
    have hfeed : ∀ text ∈ Console.arrived [Json.write ir.encode], ¬ Console.EndsInFeed text := by
      intro text htext
      have hmem : text ∈ [Json.write ir.encode] := (List.takeWhile_prefix _).subset htext
      rw [List.mem_singleton.mp hmem, Console.EndsInFeed, IR.encode, IR.encodeWith, Value.record,
        Json.getLast?_write_map]
      decide
    have hnone : ∀ shown ir t, c.Resolves env shown ir → c.task.Prints ir t → t.EndsInText := by
      intro _ _ _ _ ht
      rw [htask] at ht
      cases ht
    rw [Console.writes_document hformat]
    obtain ⟨hempty, hiff⟩ := (Console.brings_replace hscreen _).redirected_iff hmissing
    refine ⟨hempty, hiff.trans (imp_congr_right fun _ => ?_)⟩
    exact and_congr_right fun _ => ⟨fun _ _ => hnone, fun _ => hfeed⟩
  | @table _ ir t hresolves ht =>
    rw [Console.writes_table hformat]
    obtain ⟨hempty, hiff⟩ :=
      (Console.brings_add hscreen hmissing (t.texts_ne_nil console.format)).redirected_iff hmissing
    refine ⟨hempty, hiff.trans (imp_congr_right fun _ => and_congr_right fun _ => ?_)⟩
    rw [ht.texts_endInText_iff hformat]
    refine imp_congr_right fun _ => ⟨fun htext shown' ir' t' hresolves' ht' => ?_, fun hall => ?_⟩
    · obtain rfl := hresolves.unique hresolves'
      obtain rfl := ht.unique ht'
      exact htext
    · exact hall _ _ _ hresolves ht

namespace Environment

variable {env : Environment} {words words' : List String} {flags : Flags} {c : Command}
variable {name : String} {e : FileError}

theorem console_redirected (env : Environment) (flags : Flags) (hname : name ≠ "") :
    env.console { flags with output := some name } = (env.console flags).redirected name := by
  simp [console, Console.make, Console.redirected, hname]

/-- With a file in its place the standard output stays empty, and a new file holds what the same
command line prints without it exactly in these cases: nothing is printed; or the file can be
written, and no row of a plain table that is printed ends in a line feed. -/
theorem redirected_eq_printed_iff (hrun : Invocation.ofWords words = .run flags c)
    (hrun' : Invocation.ofWords words' = .run { flags with output := some name } c)
    (hscreen : flags.output = none) (hname : name ≠ "")
      (hformat : (env.console flags).format ≠ .rich)
    (hmissing : env.world.files.find (Path.ofText name) = .error e) :
    (env.run words').stdout = "" ∧
    ((env.run words').files.heldUnder name = (env.run words).stdout.toUTF8.toList ↔
      ((env.run words).stdout ≠ "" → (∃ place, env.world.files.writable name = .ok place) ∧
        ((env.console flags).format = .plain → ∀ shown ir t, c.Resolves env shown ir →
          c.task.Prints ir t → t.EndsInText))) := by
  have hnone : (env.console flags).outputFile = none := by simp [console, Console.make, hscreen]
  have hwrites : c.writes env ((env.console flags).redirected name) =
      c.writes env (env.console flags) := by
    rw [Command.writes, Console.writes_redirected hformat, Command.writes]
  obtain ⟨hout, -⟩ := run_data env hrun
  obtain ⟨hout', hfiles'⟩ := run_data env hrun'
  rw [console_redirected env flags hname, hwrites] at hout' hfiles'
  rw [hout, hout', hfiles']
  exact (c.delivers env (env.console flags)).redirected_iff hnone hformat hmissing

def petOutputWords : List String := ["-o", "pets.tsv", "inspect", "models", "-"]

theorem pet_output_eq_printed :
    Invocation.ofWords petOutputWords =
      .run { petFlags with output := some "pets.tsv" } petCommand ∧
    ((petEnvironment "A good dog").run petOutputWords).stdout = "" ∧
    ((petEnvironment "A good dog").run petOutputWords).files.heldUnder "pets.tsv" =
      ((petEnvironment "A good dog").run petWords).stdout.toUTF8.toList := by
  have hrun : Invocation.ofWords petWords = .run petFlags petCommand := by decide +kernel
  have hrun' : Invocation.ofWords petOutputWords =
      .run { petFlags with output := some "pets.tsv" } petCommand := by decide +kernel
  have hformat : ((petEnvironment "A good dog").console petFlags).format ≠ .rich := by
    decide +kernel
  have hmissing : (petEnvironment "A good dog").world.files.find (Path.ofText "pets.tsv") =
      .error .notFound := by decide +kernel
  have hloaded : petCommand.loaded (petEnvironment "A good dog") .standard =
      .ok (petDocument "A good dog") := by decide +kernel
  have htable : Inspect.models (petIR "A good dog") = petTable "A good dog" := by decide +kernel
  obtain ⟨shown, hresolves⟩ := pet_resolves hloaded (by decide +kernel)
  obtain ⟨hempty, hiff⟩ :=
    redirected_eq_printed_iff hrun hrun' rfl (by decide) hformat hmissing
  refine ⟨hrun', hempty, hiff.mpr fun _ => ⟨⟨⟨"", ["pets.tsv"]⟩, by decide +kernel⟩, ?_⟩⟩
  intro _ shown' ir t hresolves' ht row hrow cell hcell
  obtain rfl := hresolves.unique hresolves'
  cases ht with
  | models =>
    have hmem := (List.takeWhile_prefix _).subset hrow
    rw [htable] at hmem
    obtain rfl : row = ["Pet", "0", "A good dog"] := by simpa [petTable] using hmem
    obtain rfl := Option.some.inj hcell
    unfold Console.EndsInFeed
    decide

/-- The line feed at the end of a description makes an empty line on the screen and none in the
file. -/
theorem pet_output_ne_printed :
    Invocation.ofWords petWords = .run petFlags petCommand ∧
    Invocation.ofWords petOutputWords =
      .run { petFlags with output := some "pets.tsv" } petCommand ∧
    ((petEnvironment "A dog\\n").console petFlags).format = .plain ∧
    (petEnvironment "A dog\\n").world.files.find (Path.ofText "pets.tsv") = .error .notFound ∧
    ((petEnvironment "A dog\\n").run petWords).stdout =
      "Model\tProperties\tDescription\nPet\t0\tA dog\n\n" ∧
    ((petEnvironment "A dog\\n").run petOutputWords).files.heldUnder "pets.tsv" =
      "Model\tProperties\tDescription\nPet\t0\tA dog\n".toUTF8.toList ∧
    ((petEnvironment "A dog\\n").run petOutputWords).files.heldUnder "pets.tsv" ≠
      ((petEnvironment "A dog\\n").run petWords).stdout.toUTF8.toList := by
  have hprinted : ((petEnvironment "A dog\\n").run petWords).stdout =
      "Model\tProperties\tDescription\nPet\t0\tA dog\n\n" := by decide +kernel
  have hfile : ((petEnvironment "A dog\\n").run petOutputWords).files.heldUnder "pets.tsv" =
      "Model\tProperties\tDescription\nPet\t0\tA dog\n".toUTF8.toList := by decide +kernel
  refine ⟨by decide +kernel, by decide +kernel, by decide +kernel, by decide +kernel, hprinted,
    hfile, ?_⟩
  rw [hprinted, hfile]
  exact fun h => absurd (Text.bytes_inj.mp h) (by decide)

end Environment

end OpenApiIR
