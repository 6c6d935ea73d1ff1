import OpenApiIR.Console.Basic

/-! What showing leaves behind. Data and messages do not get in each other's way: where all data can
be written they stand in order in their place, and the messages in order on the standard error. A
file that can be written can be written again, so lines that are added one by one arrive as one
block. -/

namespace OpenApiIR

namespace Text

theorem bytes_loop (bs : ByteArray) (i : Nat) (r : List UInt8) :
    ByteArray.toList.loop bs i r = r.reverse ++ bs.data.toList.drop i := by
  fun_induction ByteArray.toList.loop bs i r with
  | case1 i r h ih =>
    have hget : bs.get! i = bs.data.toList.get ⟨i, h⟩ := by
      simp [ByteArray.get!, getElem!_pos bs.data i h]
    rw [ih, List.drop_eq_getElem_cons (h : i < bs.data.toList.length)]
    simp [hget]
  | case2 i r h =>
    have hi : bs.data.toList.length ≤ i := Nat.le_of_not_lt h
    simp [List.drop_eq_nil_of_le hi]

theorem bytes_append (a b : String) :
    (a ++ b).toUTF8.toList = a.toUTF8.toList ++ b.toUTF8.toList := by
  simp [ByteArray.toList, bytes_loop]

theorem bytes_empty : "".toUTF8.toList = [] := by decide +kernel

end Text

namespace FileTree

theorem eq_empty {t : FileTree} (h : t.nodes = []) : t = .empty := by
  cases t
  exact congrArg mk h

theorem mem_putNode {ns : List (Path × FileNode)} {e : Path × FileNode} (h : e ∈ ns) (place : Path)
    (n : FileNode) : ∃ e' ∈ putNode ns place n, e'.1 = e.1 := by
  induction ns with
  | nil => cases h
  | cons f rest ih =>
    by_cases hf : f.1 = place
    · rw [putNode, if_pos hf]
      rcases List.mem_cons.mp h with rfl | hm
      · exact ⟨(place, n), List.mem_cons_self, hf.symm⟩
      · exact ⟨e, List.mem_cons_of_mem _ hm, rfl⟩
    · rw [putNode, if_neg hf]
      rcases List.mem_cons.mp h with rfl | hm
      · exact ⟨e, List.mem_cons_self, rfl⟩
      · obtain ⟨e', he', hk⟩ := ih hm
        exact ⟨e', List.mem_cons_of_mem _ he', hk⟩

theorem putNode_putNode (ns : List (Path × FileNode)) (place : Path) (a b : FileNode) :
    putNode (putNode ns place a) place b = putNode ns place b := by
  induction ns with
  | nil => simp [putNode]
  | cons f rest ih =>
    by_cases hf : f.1 = place
    · simp [putNode, hf]
    · simp [putNode, hf, ih]

variable {t : FileTree} {place p q : Path}

theorem put_put (t : FileTree) (place : Path) (a b : FileNode) :
    (t.put place a).put place b = t.put place b := by
  simp only [put, putNode_putNode]

theorem isAbove_put (h : t.isAbove p = true) (place : Path) (n : FileNode) :
    (t.put place n).isAbove p = true := by
  obtain ⟨e, he, hp⟩ := List.any_eq_true.mp h
  obtain ⟨e', he', hk⟩ := mem_putNode he place n
  exact List.any_eq_true.mpr ⟨e', he', by rw [hk]; exact hp⟩

theorem node?_put_self (t : FileTree) (place : Path) (n : FileNode) :
    (t.put place n).node? place = some n := by
  simp [node?, stored?_put]

/-- A directory stays one when something is put where there is none. -/
theorem node?_put_directory (hplace : t.node? place ≠ some .directory) (n : FileNode)
    (h : t.node? p = some .directory) : (t.put place n).node? p = some .directory := by
  have hne : place ≠ p := fun he => hplace (he ▸ h)
  have hstored : (t.put place n).stored? p = t.stored? p := by rw [stored?_put, if_neg hne]
  cases hs : t.stored? p with
  | some m =>
    rw [node?, hs] at h
    rw [node?, hstored, hs]
    exact h
  | none =>
    rw [node?, hs] at h
    rw [node?, hstored, hs]
    by_cases ha : p.parts.all (· = Path.up) ∨ t.isAbove p
    · exact if_pos (ha.imp_right fun ha => isAbove_put ha place n)
    · exact absurd ((if_neg ha).symm.trans h) (by simp)

theorem walk_put {names : List String} (hplace : t.node? place ≠ some .directory) (n : FileNode)
    (h : t.walk p names = .ok q) : (t.put place n).walk p names = .ok q := by
  induction names generalizing p with
  | nil => exact h
  | cons name rest ih =>
    unfold walk at h ⊢
    split at h
    · cases h
    · cases h
    · rename_i hd
      rw [node?_put_directory hplace n hd]
      split at h
      · cases h
      · rename_i hlen
        exact (if_neg hlen).trans (ih h)

def lastName (text : String) : String := (Path.segments text).getLast?.getD ""

/-- What it takes for a text to be written to: its last name is one of a file, there is a directory
around it, and none in its place. -/
structure Writes (t : FileTree) (text : String) (place : Path) : Prop where
  named : ¬ (lastName text = "" ∨ lastName text = "." ∨ lastName text = Path.up)
  around : ∃ d, t.locate (Path.ofText text).parent = .ok d ∧ t.node? d = some .directory
  located : t.locate (Path.ofText text) = .ok place
  free : t.node? place ≠ some .directory

theorem writable_ok_iff {text : String} : t.writable text = .ok place ↔ t.Writes text place := by
  -- A last name that is a detour passes the look at what is around it and fails at the name.
  unfold writable
  dsimp only [bind, Except.bind, pure, Except.pure, throw, throwThe, MonadExceptOf.throw]
  constructor
  · intro h
    split at h
    · rename_i hl
      split at h
      · cases h
      · split at h
        · cases h
        · rw [if_pos (Or.inr hl)] at h
          cases h
    · split at h
      · cases h
      · rename_i d hd
        split at h
        · cases h
        · cases h
        · rename_i hn
          split at h
          · cases h
          · rename_i hnamed
            split at h
            · cases h
            · rename_i q hq
              split at h
              · cases h
              · rename_i hfree
                obtain rfl := Except.ok.inj h
                exact ⟨hnamed, ⟨d, hd, hn⟩, hq, hfree⟩
  · rintro ⟨hnamed, ⟨d, hd, hn⟩, hq, hfree⟩
    have hl : ¬ (lastName text = "." ∨ lastName text = Path.up) := fun h => hnamed (Or.inr h)
    unfold lastName at hl hnamed
    simp only [if_neg hl, if_neg hnamed, hd, hn, hq, if_neg hfree]

/-- A file that has been written can be written again. -/
theorem writable_put {text : String} {content : List UInt8} (h : t.writable text = .ok place) :
    (t.put place (.file content)).writable text = .ok place := by
  rw [writable_ok_iff] at h ⊢
  obtain ⟨d, hd, hn⟩ := h.around
  refine ⟨h.named, ⟨d, walk_put h.free _ hd, node?_put_directory h.free _ hn⟩,
    walk_put h.free _ h.located, ?_⟩
  simp [node?_put_self]

def held (t : FileTree) (p : Path) : List UInt8 :=
  match t.node? p with
  | some (.file content) => content
  | _ => []

theorem overwrite_ok {text : String} (h : t.writable text = .ok place) (content : List UInt8) :
    t.overwrite text content = .ok (t.put place (.file content)) := by
  simp only [overwrite, h]
  rfl

theorem append_ok {text : String} (h : t.writable text = .ok place) (content : List UInt8) :
    t.append text content = .ok (t.put place (.file (t.held place ++ content))) := by
  simp only [append, h, held, bind, Except.bind]
  rcases t.node? place with _ | _ | before <;> rfl

theorem held_put (t : FileTree) (place : Path) (content : List UInt8) :
    (t.put place (.file content)).held place = content := by
  simp [held, node?_put_self]

def extended (t : FileTree) (place : Path) (text : String) : FileTree :=
  t.put place (.file (t.held place ++ text.toUTF8.toList))

theorem extended_empty (t : FileTree) (place : Path) :
    t.extended place "" = t.put place (.file (t.held place)) := by
  rw [extended, Text.bytes_empty, List.append_nil]

theorem extended_extended (t : FileTree) (place : Path) (a b : String) :
    (t.extended place a).extended place b = t.extended place (a ++ b) := by
  simp only [extended, held_put, put_put, Text.bytes_append, List.append_assoc]

end FileTree

namespace Transcript

def noted (t : Transcript) (text : String) : Transcript := { t with stderr := t.stderr ++ text }

@[simp] theorem files_noted (t : Transcript) (text : String) : (t.noted text).files = t.files := rfl

theorem noted_noted (t : Transcript) (a b : String) : (t.noted a).noted b = t.noted (a ++ b) := by
  simp only [noted, String.append_assoc]

end Transcript

/-- Lines that only a verbose console shows. -/
inductive Display.IsAside : Display → Prop where
  | debug {text : String} : IsAside (.debug text)
  | log {r : LogRecord} : IsAside (.log r)

namespace Console

def report (c : Console) (ds : List Display) : String :=
  String.join (ds.map fun d => Text.backslashed (c.message d))

variable {c : Console} {t t' : Transcript}

theorem report_nil (c : Console) : c.report [] = "" := rfl

theorem report_append (c : Console) (ds es : List Display) :
    c.report (ds ++ es) = c.report ds ++ c.report es := by
  simp [report]

theorem report_singleton (c : Console) (d : Display) :
    c.report [d] = Text.backslashed (c.message d) := by
  simp [report]

theorem report_cons (c : Console) (d : Display) (ds : List Display) :
    c.report (d :: ds) = c.report [d] ++ c.report ds := report_append c [d] ds

/-- A line without colours, as the standard error shows it. -/
def plainLine (text : String) : String := Text.backslashed (ended text)

theorem report_error (h : c.hasColours = false) (text : String) :
    c.report [.error text] = plainLine ("Error: " ++ text) := by
  simp [report_singleton, message, line, h, plainLine]

/-- Without the flag for more, debug lines and log records are not shown. -/
theorem report_asides (h : c.verbose = false) {ds : List Display} (hds : ∀ d ∈ ds, d.IsAside) :
    c.report ds = "" := by
  induction ds with
  | nil => rfl
  | cons d rest ih =>
    have hd : c.message d = "" := by
      cases hds d List.mem_cons_self <;> simp [message, h]
    rw [report_cons, report_singleton, hd, ih fun e he => hds e (List.mem_cons_of_mem _ he)]
    rfl

/-- What only a verbose console shows holds no data. -/
theorem writes_asides (c : Console) {ds : List Display} (hds : ∀ d ∈ ds, d.IsAside) :
    ds.flatMap c.writes = [] := by
  rw [List.flatMap_eq_nil_iff]
  intro d hd
  cases hds d hd <;> rfl

theorem encodable_ended {text : String} : Text.Encodable (ended text) ↔ Text.Encodable text := by
  rw [ended, Text.encodable_append]
  exact and_iff_left (by decide)

theorem store_noted (t : Transcript) (put : List UInt8 → Except FileError FileTree)
    (text s : String) : store (t.noted s) put text =
      ((store t put text).1.noted s, (store t put text).2) := by
  unfold store
  cases put (if Text.Encodable text then content text else []) <;> rfl

theorem print_noted (t : Transcript) (text s : String) :
    print (t.noted s) text = ((print t text).1.noted s, (print t text).2) := by
  unfold print
  by_cases h : Text.Encodable text
  · simp only [if_pos h]
    rfl
  · simp only [if_neg h]

theorem write_noted (c : Console) (t : Transcript) (w : Write) (s : String) :
    c.write (t.noted s) w = ((c.write t w).1.noted s, (c.write t w).2) := by
  unfold write
  split
  · exact print_noted ..
  · exact store_noted ..
  · exact store_noted ..
  · exact print_noted ..
  · exact print_noted ..

/-- Data are written whatever stands on the standard error, which they leave alone. -/
theorem writeAll_noted (c : Console) (t : Transcript) (ws : List Write) (s : String) :
    c.writeAll (t.noted s) ws = ((c.writeAll t ws).1.noted s, (c.writeAll t ws).2) := by
  induction ws generalizing t with
  | nil => rfl
  | cons w rest ih =>
    simp only [writeAll, write_noted]
    obtain ⟨u, failed⟩ := c.write t w
    cases failed with
    | some x => rfl
    | none => exact ih u

theorem writeAll_append (c : Console) (t : Transcript) (ws vs : List Write) :
    c.writeAll t (ws ++ vs) = match c.writeAll t ws with
      | (u, none) => c.writeAll u vs
      | (u, some e) => (u, some e) := by
  induction ws generalizing t with
  | nil => rfl
  | cons w rest ih =>
    simp only [List.cons_append, writeAll]
    obtain ⟨u, failed⟩ := c.write t w
    cases failed with
    | some x => rfl
    | none => exact ih u

theorem present_eq (c : Console) (t : Transcript) (d : Display) :
    c.present t d = ((c.writeAll t (c.writes d)).1.noted (c.report [d]),
      (c.writeAll t (c.writes d)).2) := by
  have h : c.present t d = c.writeAll (t.noted (c.report [d])) (c.writes d) := by
    rw [report_singleton]
    rfl
  rw [h, writeAll_noted]

/-- What comes first is shown first, and what comes next only if all of that could be written. -/
theorem presentAll_append (c : Console) (t : Transcript) (ds es : List Display) :
    c.presentAll t (ds ++ es) = match c.presentAll t ds with
      | (u, none) => c.presentAll u es
      | (u, some e) => (u, some e) := by
  induction ds generalizing t with
  | nil => rfl
  | cons d rest ih =>
    simp only [List.cons_append, presentAll]
    obtain ⟨u, failed⟩ := c.present t d
    cases failed with
    | some x => rfl
    | none => exact ih u

/-- Where all the data can be written, they and the messages are all that is shown. -/
theorem presentAll_written {ds : List Display}
    (h : c.writeAll t (ds.flatMap c.writes) = (t', none)) :
    c.presentAll t ds = (t'.noted (c.report ds), none) := by
  induction ds generalizing t t' with
  | nil =>
    obtain ⟨rfl, -⟩ := Prod.mk.inj h
    simp [presentAll, Transcript.noted, report_nil]
  | cons d rest ih =>
    rw [List.flatMap_cons, writeAll_append] at h
    split at h
    -- The rest goes on from what `d` has written, below the messages of `d`.
    · rename_i u hu
      have hrest : c.writeAll (u.noted (c.report [d])) (rest.flatMap c.writes) =
          (t'.noted (c.report [d]), none) := by rw [writeAll_noted, h]
      rw [presentAll, present_eq, hu]
      dsimp only
      rw [ih hrest, Transcript.noted_noted, report_cons c d rest]
    · cases h

/-- Where the data of one display cannot be written, nothing after it is shown. -/
theorem presentAll_broken {ds : List Display} {d : Display} {x : Defect}
    (h : c.writeAll t (ds.flatMap c.writes) = (t', none)) {u : Transcript}
    (hd : c.writeAll t' (c.writes d) = (u, some x)) (rest : List Display) :
    c.presentAll t (ds ++ d :: rest) = (u.noted (c.report (ds ++ [d])), some x) := by
  rw [presentAll_append, presentAll_written h]
  dsimp only
  rw [presentAll, present_eq, writeAll_noted, hd]
  dsimp only
  rw [Transcript.noted_noted, report_append]

theorem print_encodable {text : String} (h : Text.Encodable text) (t : Transcript) :
    print t text = ({ t with stdout := t.stdout ++ text }, none) := if_pos h

theorem print_unencodable {text : String} (h : ¬ Text.Encodable text) (t : Transcript) :
    print t text = (t, some .unencodable) := if_neg h

theorem store_encodable {put : List UInt8 → Except FileError FileTree} {text : String}
    {files : FileTree} (h : Text.Encodable text) (hput : put (content text) = .ok files)
    (t : Transcript) : store t put text = ({ t with files }, none) := by
  simp only [store, if_pos h, hput]

theorem store_unencodable {put : List UInt8 → Except FileError FileTree} {text : String}
    {files : FileTree} (h : ¬ Text.Encodable text) (hput : put [] = .ok files) (t : Transcript) :
    store t put text = ({ t with files }, some .unencodable) := by
  simp only [store, if_neg h, hput]

theorem writeAll_singleton (c : Console) (t : Transcript) (w : Write) :
    c.writeAll t [w] = c.write t w := by
  rw [writeAll]
  obtain ⟨u, failed⟩ := c.write t w
  cases failed <;> rfl

/-- The texts that arrive: all before the first that has no bytes. -/
def arrived (texts : List String) : List String := texts.takeWhile fun text => Text.Encodable text

def halted (texts : List String) : Option Defect :=
  if ∀ text ∈ texts, Text.Encodable text then none else some .unencodable

theorem arrived_cons {text : String} (h : Text.Encodable text) (rest : List String) :
    arrived (text :: rest) = text :: arrived rest := by
  simp [arrived, h]

theorem arrived_cons_of_not {text : String} (h : ¬ Text.Encodable text) (rest : List String) :
    arrived (text :: rest) = [] := by
  simp [arrived, h]

theorem arrived_of_encodable {texts : List String} (h : ∀ text ∈ texts, Text.Encodable text) :
    arrived texts = texts := by
  induction texts with
  | nil => rfl
  | cons text rest ih =>
    rw [arrived_cons (h text List.mem_cons_self), ih fun s hs => h s (List.mem_cons_of_mem _ hs)]

theorem halted_cons {text : String} (h : Text.Encodable text) (rest : List String) :
    halted (text :: rest) = halted rest := by
  simp [halted, h]

theorem halted_cons_of_not {text : String} (h : ¬ Text.Encodable text) (rest : List String) :
    halted (text :: rest) = some .unencodable := by
  simp [halted, h]

theorem writeAll_add_screen (h : c.outputFile = none) (t : Transcript) (texts : List String) :
    c.writeAll t (texts.map .add) =
      ({ t with stdout := t.stdout ++ String.join ((arrived texts).map ended) }, halted texts) := by
  induction texts generalizing t with
  | nil => simp [writeAll, arrived, halted]
  | cons text rest ih =>
    have hfirst : c.write t (.add text) = print t (ended text) := by simp only [write, h]
    rw [List.map_cons, writeAll, hfirst]
    by_cases htext : Text.Encodable text
    · rw [print_encodable (encodable_ended.mpr htext), arrived_cons htext, halted_cons htext]
      dsimp only
      rw [ih]
      simp [String.append_assoc]
    · rw [print_unencodable (mt encodable_ended.mp htext), arrived_cons_of_not htext,
        halted_cons_of_not htext]
      simp

/-- Texts that are added to a file one by one stand in it one after the other. -/
theorem writeAll_add_file {name : String} {place : Path} (h : c.outputFile = some name)
    (hplace : t.files.writable name = .ok place) {texts : List String} (hne : texts ≠ []) :
    c.writeAll t (texts.map .add) =
      ({ t with files := t.files.extended place (String.join ((arrived texts).map closed)) },
        halted texts) := by
  induction texts generalizing t with
  | nil => exact absurd rfl hne
  | cons text rest ih =>
    have hfirst : c.write t (.add text) = store t (t.files.append name) text := by
      simp only [write, h]
    rw [List.map_cons, writeAll, hfirst]
    by_cases htext : Text.Encodable text
    · rw [store_encodable htext (FileTree.append_ok hplace _), arrived_cons htext,
        halted_cons htext]
      dsimp only
      cases rest with
      | nil => simp [writeAll, arrived, halted, FileTree.extended, content]
      | cons next rest =>
        have hstill : (t.files.extended place (closed text)).writable name = .ok place :=
          FileTree.writable_put hplace
        have hrest := ih (t := { t with files := t.files.extended place (closed text) }) hstill
          (List.cons_ne_nil next rest)
        rw [FileTree.extended_extended] at hrest
        rw [List.map_cons (f := closed), String.join_cons]
        exact hrest
    -- The file is opened before the text is looked at, so it is there all the same.
    · rw [store_unencodable htext (FileTree.append_ok hplace _), arrived_cons_of_not htext,
        halted_cons_of_not htext, List.append_nil, ← FileTree.extended_empty]
      rfl

end Console

end OpenApiIR
