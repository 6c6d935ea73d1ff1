import OpenApiIR.Proofs.RunOutcome

/-! Plain tables as text. A cell is written as it is, so a table can be read back from its lines
exactly when no cell holds a tab or a line feed and all of them have bytes. Main statement: this for
every table that a run prints, wherever the lines go. -/

namespace OpenApiIR

namespace Text

/-- A piece holds what the text holds, but for the separator. -/
theorem mem_of_mem_splitOn {sep c : Char} {cs piece : List Char} (hp : piece ∈ splitOn sep cs)
    (hc : c ∈ piece) : c ∈ cs ∧ c ≠ sep := by
  induction cs generalizing piece with
  | nil =>
    rw [List.mem_singleton.mp hp] at hc
    cases hc
  | cons x rest ih =>
    unfold splitOn at hp
    split at hp
    · rcases List.mem_cons.mp hp with rfl | hp
      · cases hc
      · exact ⟨List.mem_cons_of_mem x (ih hp hc).1, (ih hp hc).2⟩
    · rename_i hx
      split at hp
      · rename_i hn
        exact absurd hn (splitOn_ne_nil sep rest)
      · rename_i first others hs
        rcases List.mem_cons.mp hp with rfl | hp
        · rcases List.mem_cons.mp hc with rfl | hc
          · exact ⟨List.mem_cons_self, hx⟩
          · have := ih (hs ▸ List.mem_cons_self) hc
            exact ⟨List.mem_cons_of_mem x this.1, this.2⟩
        · have := ih (hs ▸ List.mem_cons_of_mem _ hp) hc
          exact ⟨List.mem_cons_of_mem x this.1, this.2⟩

end Text

namespace Table

/-- Read a text as a table: a row for each line feed, cells between tabs. -/
def parse (text : String) : List (List String) :=
  (Text.splitOn '\n' text.toList).dropLast.map fun line =>
    (Text.splitOn '\t' line).map String.ofList

/-- No cell holds what the lines use to tell cells and rows apart. -/
def Clean (rows : List (List String)) : Prop :=
  ∀ row ∈ rows, ∀ cell ∈ row, '\t' ∉ cell.toList ∧ '\n' ∉ cell.toList

instance (rows : List (List String)) : Decidable (Clean rows) :=
  inferInstanceAs (Decidable (∀ row ∈ rows, ∀ cell ∈ row, _ ∧ _))

/-- What a cell is read from: it stands in the text, and is neither of the separators. -/
theorem mem_of_mem_parse {text cell : String} {row : List String} {c : Char}
    (hrow : row ∈ parse text) (hcell : cell ∈ row) (hc : c ∈ cell.toList) :
    c ∈ text.toList ∧ c ≠ '\t' ∧ c ≠ '\n' := by
  obtain ⟨line, hline, rfl⟩ := List.mem_map.mp hrow
  obtain ⟨piece, hpiece, rfl⟩ := List.mem_map.mp hcell
  rw [String.toList_ofList] at hc
  obtain ⟨hc, htab⟩ := Text.mem_of_mem_splitOn hpiece hc
  obtain ⟨hc, hfeed⟩ := Text.mem_of_mem_splitOn (List.dropLast_subset _ hline) hc
  exact ⟨hc, htab, hfeed⟩

theorem clean_parse (text : String) : Clean (parse text) := by
  intro row hrow cell hcell
  constructor
  · intro ht
    exact (mem_of_mem_parse hrow hcell ht).2.1 rfl
  · intro hn
    exact (mem_of_mem_parse hrow hcell hn).2.2 rfl

theorem parse_ended {first : String} (h : '\n' ∉ first.toList) (rest : String) :
    parse (Console.ended first ++ rest) =
      (Text.splitOn '\t' first.toList).map String.ofList :: parse rest := by
  have hchars : (Console.ended first ++ rest).toList = first.toList ++ '\n' :: rest.toList := by
    simp [Console.ended]
  have hrest : Text.splitOn '\n' rest.toList ≠ [] := Text.splitOn_ne_nil _ _
  rw [parse, hchars, Text.splitOn_eq, List.splitOn_append_cons_self_of_not_mem h, ← Text.splitOn_eq,
    List.dropLast_cons_of_ne_nil hrest, List.map_cons, ← parse]

theorem line_chars (cells : List String) :
    (line cells).toList = ['\t'].intercalate (cells.map String.toList) :=
  String.toList_intercalate

theorem split_line {cells : List String} (hne : cells ≠ [])
    (h : ∀ cell ∈ cells, '\t' ∉ cell.toList) :
    (Text.splitOn '\t' (line cells).toList).map String.ofList = cells := by
  have hpieces : ∀ piece ∈ cells.map String.toList, '\t' ∉ piece := by
    intro piece hp
    obtain ⟨cell, hcell, rfl⟩ := List.mem_map.mp hp
    exact h cell hcell
  rw [line_chars, Text.splitOn_eq, List.splitOn_intercalate '\t' hpieces (by simpa using hne)]
  simp

theorem mem_line {cells : List String} {c : Char} (hc : c ≠ '\t') :
    c ∈ (line cells).toList ↔ ∃ cell ∈ cells, c ∈ cell.toList := by
  rw [line_chars]
  induction cells with
  | nil => simp
  | cons cell rest ih =>
    cases rest with
    | nil => simp
    | cons next rest =>
      rw [List.map_cons] at ih
      rw [List.map_cons, List.map_cons, List.intercalate_cons_cons]
      simp [hc, ih]

theorem lineFeed_not_mem_line {cells : List String} (h : ∀ cell ∈ cells, '\n' ∉ cell.toList) :
    '\n' ∉ (line cells).toList := by
  rw [mem_line (by decide)]
  rintro ⟨cell, hcell, hfeed⟩
  exact h cell hcell hfeed

theorem encodable_line {cells : List String} :
    Text.Encodable (line cells) ↔ ∀ cell ∈ cells, Text.Encodable cell := by
  constructor
  · intro h cell hcell c hc
    by_cases htab : c = '\t'
    · rw [htab]
      decide
    · exact h c ((mem_line htab).mpr ⟨cell, hcell, hc⟩)
  · intro h c hc
    by_cases htab : c = '\t'
    · rw [htab]
      decide
    · obtain ⟨cell, hcell, hc⟩ := (mem_line htab).mp hc
      exact h cell hcell c hc

theorem parse_lines {rows : List (List String)} (hne : ∀ row ∈ rows, row ≠ []) (h : Clean rows) :
    parse (String.join (rows.map fun row => Console.ended (line row))) = rows := by
  induction rows with
  | nil => rfl
  | cons row rest ih =>
    have hrow := h row List.mem_cons_self
    have hfeed := lineFeed_not_mem_line fun cell hcell => (hrow cell hcell).2
    rw [List.map_cons, String.join_cons, parse_ended hfeed,
      split_line (hne row List.mem_cons_self) fun cell hcell => (hrow cell hcell).1,
      ih (fun r hr => hne r (List.mem_cons_of_mem row hr)) fun r hr =>
        h r (List.mem_cons_of_mem row hr)]

theorem closed_eq_ended {text : String} (h : '\n' ∉ text.toList) :
    Console.closed text = Console.ended text := by
  refine if_neg fun hlast => ?_
  exact h (List.mem_of_getLast? hlast)

structure Rectangular (t : Table) : Prop where
  headed : t.headers ≠ []
  even : ∀ row ∈ t.rows, row.length = t.headers.length

def allRows (t : Table) : List (List String) := t.headers :: t.rows

def Encodable (t : Table) : Prop := ∀ row ∈ t.allRows, ∀ cell ∈ row, Text.Encodable cell

instance (t : Table) : Decidable t.Encodable :=
  inferInstanceAs (Decidable (∀ row ∈ t.allRows, ∀ cell ∈ row, Text.Encodable cell))

variable {t : Table}

theorem encodable_iff : t.Encodable ↔ ∀ text ∈ t.lines, Text.Encodable text := by
  constructor
  · intro h text htext
    obtain ⟨row, hrow, rfl⟩ := List.mem_map.mp htext
    exact encodable_line.mpr (h row hrow)
  · intro h row hrow
    exact encodable_line.mp (h _ (List.mem_map_of_mem hrow))

theorem Rectangular.row_ne_nil (h : t.Rectangular) : ∀ row ∈ t.allRows, row ≠ [] := by
  intro row hrow hnil
  rcases List.mem_cons.mp hrow with rfl | hrow
  · exact h.headed hnil
  · have := h.even row hrow
    rw [hnil] at this
    exact h.headed (List.length_eq_zero_iff.mp this.symm)

/-- A way to close lines: with a line feed of their own, at least where they hold none. -/
structure Closes (close : String → String) : Prop where
  line {text : String} : '\n' ∉ text.toList → close text = Console.ended text
  bytes {text : String} : Text.Encodable text → Text.Encodable (close text)

theorem closes_ended : Closes Console.ended := ⟨fun _ => rfl, Console.encodable_ended.mpr⟩

theorem closes_closed : Closes Console.closed := by
  refine ⟨closed_eq_ended, fun {text} h => ?_⟩
  unfold Console.closed
  split
  · exact h
  · exact Console.encodable_ended.mpr h

theorem encodable_arrived {close : String → String} (hclose : Closes close) (texts : List String) :
    Text.Encodable (String.join ((Console.arrived texts).map close)) := by
  have hempty : Text.Encodable "" := by decide
  induction texts with
  | nil => exact hempty
  | cons text rest ih =>
    by_cases h : Text.Encodable text
    · rw [Console.arrived_cons h, List.map_cons, String.join_cons]
      exact Text.encodable_append.mpr ⟨hclose.bytes h, ih⟩
    · rw [Console.arrived_cons_of_not h]
      exact hempty

/-- Whichever way the lines are closed, they are read back exactly from a clean table with bytes. -/
theorem parse_text_iff (h : t.Rectangular) {close : String → String} (hclose : Closes close) :
    parse (String.join ((Console.arrived t.lines).map close)) = t.allRows ↔
      Clean t.allRows ∧ t.Encodable := by
  constructor
  -- What is read is clean and has bytes whatever was written, so no other table can be read back.
  · intro hread
    refine ⟨hread ▸ clean_parse _, fun row hrow cell hcell c hc => ?_⟩
    rw [← hread] at hrow
    exact encodable_arrived hclose t.lines c (mem_of_mem_parse hrow hcell hc).1
  · rintro ⟨hclean, hbytes⟩
    have hlines : t.lines.map close = t.allRows.map fun row => Console.ended (line row) := by
      rw [lines, List.map_map]
      refine List.map_congr_left fun row hrow => hclose.line ?_
      exact lineFeed_not_mem_line fun cell hcell => (hclean row hrow cell hcell).2
    rw [Console.arrived_of_encodable (encodable_iff.mp hbytes), hlines]
    exact parse_lines h.row_ne_nil hclean

end Table

namespace Task

/-- The table that a task prints for a resolved document, if it prints one. -/
inductive Prints (ir : IR) : Task → Table → Prop where
  | models : ir.models ≠ [] → Prints ir .models (Inspect.models ir)
  | model {name : String} {m : Model} : ir.model? name = some m →
      Prints ir (.model name) (Inspect.properties m)
  | endpoints : Prints ir .endpoints (Inspect.endpoints ir)
  | diagnostics : ir.diagnostics ≠ [] → Prints ir .diagnostics (Inspect.diagnostics ir)

variable {ir : IR} {task : Task} {t : Table}

theorem Prints.rectangular (h : Prints ir task t) : t.Rectangular := by
  refine ⟨?_, ?_⟩
  · cases h <;> exact List.cons_ne_nil _ _
  · intro row hrow
    cases h with
    | models =>
      obtain ⟨m, -, rfl⟩ := List.mem_map.mp hrow
      simp [Inspect.modelRow, Inspect.models]
    | model =>
      obtain ⟨p, -, rfl⟩ := List.mem_map.mp hrow
      simp [Inspect.propertyRow, Inspect.properties]
    | endpoints =>
      obtain ⟨e, -, rfl⟩ := List.mem_map.mp hrow
      simp [Inspect.endpointRow, Inspect.endpoints]
    | diagnostics =>
      obtain ⟨d, -, rfl⟩ := List.mem_map.mp hrow
      simp [Inspect.diagnosticRow, Inspect.diagnostics]

theorem script_prints (h : Prints ir task t) : task.script ir = ⟨[.table t], .exit 0⟩ := by
  cases h with
  | models hne =>
    obtain ⟨m, ms, hms⟩ := List.exists_cons_of_ne_nil hne
    simp [script, Script.tableOr, Inspect.models, hms]
  | model hm => simp [script, hm, Script.tableOr]
  | endpoints => simp [script, Script.tableOr]
  | diagnostics hne =>
    obtain ⟨d, ds, hds⟩ := List.exists_cons_of_ne_nil hne
    simp [script, Script.tableOr, Inspect.diagnostics, hds]

end Task

/-- The text is what a run has written as data: on the standard output, or at the end of the output
file, after what that held before. No other file is changed. -/
inductive Outcome.Adds (o : Outcome) (before : FileTree) (text : String) : Option String →
    Prop where
  | screen : o.stdout = text → o.files = before → Adds o before text none
  | file {name : String} {place : Path} : before.writable name = .ok place → o.stdout = "" →
      (∀ p, o.files.stored? p =
        if place = p then some (.file (before.held place ++ text.toUTF8.toList))
        else before.stored? p) →
      Adds o before text (some name)

namespace Environment

variable {env : Environment} {words : List String} {flags : Flags} {c : Command}
variable {shown : List Display} {ir : IR} {t : Table}

theorem write_lines (t : Table) (hw : env.CanWrite flags) : ∃ close t',
    (env.console flags).writeAll env.started (t.lines.map .add) = (t', Console.halted t.lines) ∧
    Table.Closes close ∧ ∀ o : Outcome, o.stdout = t'.stdout → o.files = t'.files →
      o.Adds env.world.files (String.join ((Console.arrived t.lines).map close))
        (env.console flags).outputFile := by
  cases hfile : (env.console flags).outputFile with
  | none =>
    refine ⟨Console.ended, _, Console.writeAll_add_screen hfile _ _, Table.closes_ended,
      fun o ho hf => ?_⟩
    exact .screen (ho.trans String.empty_append) hf
  | some name =>
    obtain ⟨place, hplace : env.started.files.writable name = .ok place⟩ := hw name hfile
    have hne : t.lines ≠ [] := by simp [Table.lines]
    refine ⟨Console.closed, _, Console.writeAll_add_file hfile hplace hne, Table.closes_closed,
      fun o ho hf => .file hplace ho fun p => ?_⟩
    rw [hf]
    exact FileTree.stored?_put _ _ _ _

/-- A table in the plain format is read back from what the run has written, its headers first and
then a row for each entry, exactly when no cell holds a tab or a line feed and each has bytes. Where
one has none, the run fails. -/
theorem table_read_back_iff (hrun : Invocation.ofWords words = .run flags c)
    (hformat : (env.console flags).format = .plain) (hw : env.CanWrite flags)
    (h : c.Resolves env shown ir) (ht : c.task.Prints ir t) :
    t.Rectangular ∧ (env.run words).exitCode = (if t.Encodable then 0 else 1) ∧
    ∃ text, (env.run words).Adds env.world.files text (env.console flags).outputFile ∧
      (Table.parse text = t.headers :: t.rows ↔
        Table.Clean (t.headers :: t.rows) ∧ t.Encodable) := by
  obtain ⟨close, t', hwrite, hclose, hadds⟩ := write_lines t hw
  have hlines : (env.console flags).writes (.table t) = t.lines.map .add := by
    simp [Console.writes, hformat]
  rw [run_command hrun, Command.script_resolves h, Task.script_prints ht]
  refine ⟨ht.rectangular, ?_⟩
  by_cases hbytes : t.Encodable
  · rw [Console.halted, if_pos (Table.encodable_iff.mp hbytes)] at hwrite
    have hdisplays : (Script.mk [.table t] (.exit 0)).displays.flatMap (env.console flags).writes =
        t.lines.map .add := by
      rw [List.flatMap_singleton, hlines]
    rw [perform_after h.asides ((congrArg _ hdisplays).trans hwrite) rfl, if_pos hbytes]
    exact ⟨rfl, _, hadds _ rfl rfl, Table.parse_text_iff ht.rectangular hclose⟩
  · rw [Console.halted, if_neg (mt Table.encodable_iff.mpr hbytes)] at hwrite
    rw [perform_unwritten rfl (Console.writes_asides _ h.asides) ((congrArg _ hlines).trans hwrite),
      if_neg hbytes]
    exact ⟨rfl, _, hadds _ rfl rfl, Table.parse_text_iff ht.rectangular hclose⟩

/-- A document on the standard input with one model, whose description JSON spells like this. -/
def petEnvironment (spelling : String) : Environment where
  world := {
    files := .empty
    input := .ok ("\x7b\"openapi\": \"3.0.0\", \"components\": \x7b\"schemas\": \x7b\"Pet\": " ++
      "\x7b\"type\": \"object\", \"description\": \"" ++ spelling ++ "\"\x7d\x7d\x7d\x7d")
    network := fun _ => .failure "none"
    room := 900 }
  vars := []
  directory := "/work"
  home := "/home/user"
  system := "Linux"
  time := "20240101-000000"
  terminal := false
  draw := fun _ => ""

def petEntries (description : String) : Entries := [
  (.str "openapi", .str "3.0.0"),
  (.str "components", .map [(.str "schemas", .map [(.str "Pet",
    .map [(.str "type", .str "object"), (.str "description", .str description)])])])]

def petDocument (description : String) : Document := .ofTree (.map (petEntries description))

def petIR (description : String) : IR :=
  (IR.resolveEntries (petDocument description) "application/json" (petEntries description)).1

def petTable (description : String) : Table :=
  ⟨"Untitled API -- Models (1)", ["Model", "Properties", "Description"],
    [["Pet", "0", description]]⟩

def petWords : List String := ["inspect", "models", "-"]

def petFlags : Flags := ⟨false, false, false, false, false, none⟩

def petCommand : Command := ⟨"-", none, none, .models⟩

theorem pet_resolves {spelling description : String}
    (h : petCommand.loaded (petEnvironment spelling) .standard = .ok (petDocument description))
    (hok : (IR.resolveWithLog (petDocument description) "application/json").toBool = true) :
    ∃ shown, petCommand.Resolves (petEnvironment spelling) shown (petIR description) := by
  have hsettings : Settings.resolve 900 "/work" .empty [] petCommand.overrides = .ok .standard := by
    decide +kernel
  rcases IR.resolveWithLog_map (petDocument description) "application/json" (petEntries description)
    rfl with ⟨-, hr⟩ | ⟨-, l, log, hr⟩
  · exact ⟨_, .intro hsettings h hr⟩
  · rw [hr] at hok
    cases hok

theorem pet_table_read_back :
    Invocation.ofWords petWords = .run petFlags petCommand ∧
    ∃ text, ((petEnvironment "A good dog").run petWords).Adds .empty text none ∧
      Table.parse text = [["Model", "Properties", "Description"], ["Pet", "0", "A good dog"]] := by
  have hrun : Invocation.ofWords petWords = .run petFlags petCommand := by decide +kernel
  have hloaded : petCommand.loaded (petEnvironment "A good dog") .standard =
      .ok (petDocument "A good dog") := by decide +kernel
  obtain ⟨shown, hresolves⟩ := pet_resolves hloaded (by decide +kernel)
  have htable : Inspect.models (petIR "A good dog") = petTable "A good dog" := by decide +kernel
  have hprints : petCommand.task.Prints (petIR "A good dog") (petTable "A good dog") :=
    htable ▸ .models (by decide +kernel)
  have hplain : ((petEnvironment "A good dog").console petFlags).format = .plain := by
    decide +kernel
  have hwrite : (petEnvironment "A good dog").CanWrite petFlags := fun name hname => by cases hname
  obtain ⟨-, -, text, hadds, hread⟩ := table_read_back_iff hrun hplain hwrite hresolves hprints
  exact ⟨hrun, text, hadds, hread.mpr (by decide +kernel)⟩

/-- A tab and a line feed in a description make other cells and other rows. -/
theorem tab_in_cell_read_back_apart :
    Invocation.ofWords petWords = .run petFlags petCommand ∧
    ((petEnvironment "one\\ttwo\\nthree").console petFlags).format = .plain ∧
    (∃ shown, petCommand.Resolves (petEnvironment "one\\ttwo\\nthree") shown
      (petIR "one\ttwo\nthree")) ∧
    petCommand.task.Prints (petIR "one\ttwo\nthree") (petTable "one\ttwo\nthree") ∧
    ((petEnvironment "one\\ttwo\\nthree").run petWords).Adds .empty
      "Model\tProperties\tDescription\nPet\t0\tone\ttwo\nthree\n" none ∧
    Table.parse "Model\tProperties\tDescription\nPet\t0\tone\ttwo\nthree\n" ≠
      (petTable "one\ttwo\nthree").headers :: (petTable "one\ttwo\nthree").rows := by
  have htable : Inspect.models (petIR "one\ttwo\nthree") = petTable "one\ttwo\nthree" := by
    decide +kernel
  have hfiles : ((petEnvironment "one\\ttwo\\nthree").run petWords).files.nodes = [] := by
    decide +kernel
  exact ⟨by decide +kernel, by decide +kernel, pet_resolves (by decide +kernel) (by decide +kernel),
    htable ▸ .models (by decide +kernel), .screen (by decide +kernel) (FileTree.eq_empty hfiles),
    by decide +kernel⟩

end Environment

end OpenApiIR
