import OpenApiIR.Proofs.TableText

/-! The data of a run. Messages aside, a run leaves what its writes leave, whether or not all of
them succeed. A command has no data, or the resolved document, or one table; which of these, and as
which texts, depends on the format alone and not on the place they go to. -/

namespace OpenApiIR

namespace FileTree

variable {t : FileTree} {text : String} {place : Path} {content : List UInt8}

def heldUnder (t : FileTree) (text : String) : List UInt8 :=
  match t.content? (Path.ofText text) with
  | .ok (some content) => content
  | _ => []

theorem heldUnder_of_missing {e : FileError} (h : t.find (Path.ofText text) = .error e) :
    t.heldUnder text = [] := by
  unfold heldUnder content?
  rw [h]
  cases e <;> rfl

theorem find_of_writable (h : t.writable text = .ok place) : t.find (Path.ofText text) =
    match t.node? place with
    | some n => .ok n
    | none => .error .notFound := by
  have hlocated := (writable_ok_iff.mp h).located
  simp only [find, hlocated, bind, Except.bind]
  cases t.node? place <;> rfl

theorem heldUnder_of_writable (h : t.writable text = .ok place) :
    t.heldUnder text = t.held place := by
  have hfree := (writable_ok_iff.mp h).free
  unfold heldUnder content? held
  rw [find_of_writable h]
  cases hn : t.node? place with
  | none => rfl
  | some n =>
    cases n with
    | directory => exact absurd hn hfree
    | file content => rfl

theorem heldUnder_put (h : t.writable text = .ok place) (content : List UInt8) :
    (t.put place (.file content)).heldUnder text = content := by
  rw [heldUnder_of_writable (writable_put h), held_put]

end FileTree

namespace Table

/-- The texts that a table is written as, each with a line feed after it. -/
def texts (t : Table) : Format → List String
  | .json => [Json.write t.records]
  | _ => t.lines

theorem texts_ne_nil (t : Table) (f : Format) : t.texts f ≠ [] := by
  cases f <;> simp [texts, lines]

end Table

namespace Console

variable {c : Console} {t : Transcript} {files : FileTree} {name : String} {place : Path}

/-- Messages stay out of the way of data, also where these cannot all be written. -/
theorem presentAll_data (c : Console) (t : Transcript) (ds : List Display) : ∃ text,
    c.presentAll t ds = ((c.writeAll t (ds.flatMap c.writes)).1.noted text,
      (c.writeAll t (ds.flatMap c.writes)).2) := by
  induction ds generalizing t with
  | nil => exact ⟨"", by simp [presentAll, writeAll, Transcript.noted]⟩
  | cons d rest ih =>
    rw [presentAll, present_eq, List.flatMap_cons, writeAll_append]
    rcases c.writeAll t (c.writes d) with ⟨u, _ | e⟩
    · obtain ⟨text, hrest⟩ := ih (u.noted (c.report [d]))
      refine ⟨c.report [d] ++ text, ?_⟩
      simp only [hrest, writeAll_noted, Transcript.noted_noted]
    · exact ⟨c.report [d], rfl⟩

def written (c : Console) (files : FileTree) (ws : List Write) : Transcript :=
  (c.writeAll ⟨"", "", files⟩ ws).1

theorem writes_table (h : c.format ≠ .rich) (t : Table) :
    c.writes (.table t) = (t.texts c.format).map .add := by
  unfold writes Table.texts
  cases hf : c.format with
  | json => rfl
  | plain => rfl
  | rich => exact absurd hf h

theorem writes_document (h : c.format ≠ .rich) (v : Value) :
    c.writes (.document v) = [.replace (Json.write v)] := by
  simp [writes, h]

theorem written_replace_screen (h : c.outputFile = none) (text : String) :
    c.written files [.replace text] = ⟨String.join ((arrived [text]).map ended), "", files⟩ := by
  have hwrite : c.write ⟨"", "", files⟩ (.replace text) = print ⟨"", "", files⟩ (ended text) := by
    simp only [write, h]
  rw [written, writeAll_singleton, hwrite]
  by_cases htext : Text.Encodable text
  · rw [print_encodable (encodable_ended.mpr htext), arrived_cons htext]
    simp [arrived]
  · rw [print_unencodable (mt encodable_ended.mp htext), arrived_cons_of_not htext]
    simp

theorem written_replace_file (h : c.outputFile = some name)
    (hplace : files.writable name = .ok place) (text : String) : c.written files [.replace text] =
      ⟨"", "", files.put place
        (.file (String.join ((arrived [text]).map closed)).toUTF8.toList)⟩ := by
  have hwrite : c.write ⟨"", "", files⟩ (.replace text) =
      store ⟨"", "", files⟩ (files.overwrite name) text := by
    simp only [write, h]
  rw [written, writeAll_singleton, hwrite]
  by_cases htext : Text.Encodable text
  · rw [store_encodable htext (FileTree.overwrite_ok hplace _), arrived_cons htext]
    simp [arrived, content]
  · rw [store_unencodable htext (FileTree.overwrite_ok hplace _), arrived_cons_of_not htext,
      ← Text.bytes_empty]
    rfl

theorem written_add_screen (h : c.outputFile = none) (texts : List String) :
    c.written files (texts.map .add) =
      ⟨String.join ((arrived texts).map ended), "", files⟩ := by
  rw [written, writeAll_add_screen h]
  simp

theorem written_add_file (h : c.outputFile = some name) (hplace : files.writable name = .ok place)
    {texts : List String} (hne : texts ≠ []) : c.written files (texts.map .add) =
      ⟨"", "", files.extended place (String.join ((arrived texts).map closed))⟩ := by
  rw [written, writeAll_add_file h hplace hne]

/-- What cannot be written leaves everything as it was. -/
theorem written_unwritable (h : c.outputFile = some name)
    (hno : ∀ place, files.writable name ≠ .ok place) {ws : List Write}
    (hws : ∀ w ∈ ws, ∀ text, w ≠ .screen text) : c.written files ws = ⟨"", "", files⟩ := by
  obtain ⟨e, he⟩ : ∃ e, files.writable name = .error e := by
    cases hw : files.writable name with
    | error e => exact ⟨e, rfl⟩
    | ok place => exact absurd hw (hno place)
  cases ws with
  | nil => rfl
  | cons w rest =>
    cases w with
    | replace text =>
      simp [written, writeAll, write, store, h, FileTree.overwrite, he, bind, Except.bind]
    | add text => simp [written, writeAll, write, store, h, FileTree.append, he, bind, Except.bind]
    | screen text => exact absurd rfl (hws _ List.mem_cons_self text)

end Console

namespace Task

theorem Prints.unique {ir : IR} {task : Task} {t t' : Table} (h : Prints ir task t)
    (h' : Prints ir task t') : t = t' := by
  cases h with
  | models => cases h'; rfl
  | model hm =>
    cases h' with
    | model hm' => rw [Option.some.inj (hm.symm.trans hm')]
  | endpoints => cases h'; rfl
  | diagnostics => cases h'; rfl

/-- A task has the document for data, or one table, or nothing. -/
theorem script_writes (console : Console) (task : Task) (ir : IR) :
    (task.script ir).displays.flatMap console.writes = [] ∨
    (∃ strict, task = .parse strict ∧
      (task.script ir).displays.flatMap console.writes = console.writes (.document ir.encode)) ∨
    ∃ t, Prints ir task t ∧
      (task.script ir).displays.flatMap console.writes = console.writes (.table t) := by
  have table : ∀ {t}, Prints ir task t →
      (task.script ir).displays.flatMap console.writes = console.writes (.table t) := by
    intro t ht
    simp [script_prints ht]
  cases task with
  | parse strict => exact Or.inr (Or.inl ⟨strict, rfl, writes_parse console strict ir⟩)
  | models =>
    by_cases hne : ir.models = []
    · refine Or.inl ?_
      simp [script, Script.tableOr, Inspect.models, hne, Console.writes]
    · exact Or.inr (Or.inr ⟨_, .models hne, table (.models hne)⟩)
  | model name =>
    cases hm : ir.model? name with
    | none =>
      refine Or.inl ?_
      simp [script, hm, Script.failed, Console.writes]
    | some m => exact Or.inr (Or.inr ⟨_, .model hm, table (.model hm)⟩)
  | endpoints => exact Or.inr (Or.inr ⟨_, .endpoints, table .endpoints⟩)
  | diagnostics =>
    by_cases hne : ir.diagnostics = []
    · refine Or.inl ?_
      simp [script, Script.tableOr, Inspect.diagnostics, hne, Console.writes]
    · exact Or.inr (Or.inr ⟨_, .diagnostics hne, table (.diagnostics hne)⟩)

end Task

namespace Command

variable {c : Command} {env : Environment} {shown : List Display} {ir : IR}

def writes (c : Command) (env : Environment) (console : Console) : List Write :=
  (c.script env).displays.flatMap console.writes

theorem Resolves.unique {shown' : List Display} {ir' : IR} (h : c.Resolves env shown ir)
    (h' : c.Resolves env shown' ir') : ir = ir' := by
  cases h with
  | intro hs hd hr =>
    cases h' with
    | intro hs' hd' hr' =>
      obtain rfl := Except.ok.inj (hs.symm.trans hs')
      obtain rfl := Except.ok.inj (hd.symm.trans hd')
      exact (Prod.mk.inj (Except.ok.inj (hr.symm.trans hr'))).1

theorem writes_resolves (h : c.Resolves env shown ir) (console : Console) :
    c.writes env console = (c.task.script ir).displays.flatMap console.writes := by
  have hshown := console.writes_asides h.asides
  rw [writes, script_resolves h]
  simp [Script.after, hshown]

theorem writes_fails {message : String} {code : Nat} (h : c.Fails env shown message code)
    (console : Console) : c.writes env console = [] := by
  have hshown := console.writes_asides h.asides
  rw [writes, script_fails h]
  simp [Script.after, Script.failed, hshown, Console.writes]

theorem writes_breaks {x : Defect} (h : c.Breaks env shown x) (console : Console) :
    c.writes env console = [] := by
  have hshown := console.writes_asides h.asides
  rw [writes, script_breaks h]
  simp [Script.after, Script.broken, hshown]

/-- The writes of a command: none, or one of the document, or those of a table. -/
inductive Delivers (c : Command) (env : Environment) (console : Console) : List Write → Prop where
  | nothing : Delivers c env console []
  | document {shown : List Display} {ir : IR} {strict : Bool} : c.Resolves env shown ir →
      c.task = .parse strict → Delivers c env console (console.writes (.document ir.encode))
  | table {shown : List Display} {ir : IR} {t : Table} : c.Resolves env shown ir →
      c.task.Prints ir t → Delivers c env console (console.writes (.table t))

theorem delivers (c : Command) (env : Environment) (console : Console) :
    c.Delivers env console (c.writes env console) := by
  rcases c.begins env with ⟨shown, message, code, h⟩ | ⟨shown, ir, h⟩ | ⟨shown, x, h⟩
  · rw [writes_fails h]
    exact .nothing
  · rw [writes_resolves h]
    rcases c.task.script_writes console ir with hw | ⟨strict, htask, hw⟩ | ⟨t, ht, hw⟩
    · rw [hw]
      exact .nothing
    · rw [hw]
      exact .document h htask
    · rw [hw]
      exact .table h ht
  · rw [writes_breaks h]
    exact .nothing

end Command

namespace Environment

variable {words : List String} {flags : Flags} {c : Command}

theorem perform_data (env : Environment) (console : Console) (s : Script) :
    (env.perform console s).stdout =
        (console.written env.world.files (s.displays.flatMap console.writes)).stdout ∧
      (env.perform console s).files =
        (console.written env.world.files (s.displays.flatMap console.writes)).files := by
  obtain ⟨text, hall⟩ := console.presentAll_data ⟨"", "", env.world.files⟩ s.displays
  have hcrash : ∀ t d, (env.crash console t d).stdout = t.stdout ∧
      (env.crash console t d).files = t.files := by
    intro t d
    simp [crash, Outcome.ofTranscript, Console.present, Console.writes, Console.writeAll]
  unfold perform Console.written
  rw [hall]
  rcases console.writeAll ⟨"", "", env.world.files⟩ (s.displays.flatMap console.writes) with
    ⟨t, _ | x⟩
  · cases s.ending with
    | exit code => exact ⟨rfl, rfl⟩
    | defect d => exact hcrash _ d
  · exact hcrash _ x

theorem run_data (env : Environment) (h : Invocation.ofWords words = .run flags c) :
    (env.run words).stdout =
        ((env.console flags).written env.world.files (c.writes env (env.console flags))).stdout ∧
      (env.run words).files =
        ((env.console flags).written env.world.files (c.writes env (env.console flags))).files := by
  rw [run_command h]
  exact perform_data env _ _

end Environment

end OpenApiIR
