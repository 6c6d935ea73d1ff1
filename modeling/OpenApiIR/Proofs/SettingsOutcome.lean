import OpenApiIR.Proofs.Precedence
import OpenApiIR.Proofs.Utf8Text

/-! How settings end for every content of the project file. Main statement: they are settled, or an
error is reported, exactly when the content is a text that JSON does not break off at a limit; bytes
that are none, and such limits, get past the errors that are told to the user. Of texts, those that
are no JSON and those that are no object are reported as such, with the place of the file, and an
object leaves it to the values. -/

namespace OpenApiIR

theorem Load.fileText_eq {bytes : List UInt8} {cs : List Char}
    (h : Text.decodeUtf8 bytes = .ok cs) :
    fileText bytes = .ok (String.ofList (Text.unifyLineEnds cs)) := by
  rw [fileText, h]
  rfl

theorem Load.fileText_eq_error_iff {bytes : List UInt8} {e : Text.Utf8Error} :
    fileText bytes = .error e ↔ Text.decodeUtf8 bytes = .error e := by
  unfold fileText
  cases Text.decodeUtf8 bytes <;> simp [Except.map]

namespace Settings

def SpellText (bytes : List UInt8) : Prop := ∃ text : String, text.toUTF8.toList = bytes

theorem spellText_iff {bytes : List UInt8} :
    SpellText bytes ↔ ∃ text, Load.fileText bytes = .ok text := by
  constructor
  · rintro ⟨text, rfl⟩
    exact ⟨_, Load.fileText_eq (Text.decodeUtf8_bytes text)⟩
  · rintro ⟨text, h⟩
    cases hd : Text.decodeUtf8 bytes with
    | error e =>
      rw [Load.fileText_eq_error_iff.mpr hd] at h
      cases h
    | ok cs => exact ⟨_, Text.decodeUtf8_eq_ok_iff.mp hd⟩

/-- Where the project file of a directory stands, as messages name it. -/
def filePlace (directory : String) : String := ((Path.ofText directory).child ProjectFile.name).text

/-- Settings, or an error that is told to the user. -/
def Answers (r : Except (Failure ConfigError) Settings) : Prop :=
  (∃ s, r = .ok s) ∨ ∃ e, r = .error (.reported e)

/-- What gets past the errors that are told: bytes of no text, and a limit that is met in one. -/
inductive Escapes (room : Nat) (bytes : List UInt8) : Defect → Prop where
  | undecodable {e : Text.Utf8Error} : Text.decodeUtf8 bytes = .error e →
      Escapes room bytes (.undecodable e)
  | limit {text : String} {l : Limit} : Load.fileText bytes = .ok text →
      Json.read room text = .error (.limit l) → Escapes room bytes (.limit l)

variable {room : Nat} {files : FileTree} {bytes : List UInt8} {text : String}

/-- Bytes of a text escape by a limit alone. -/
theorem escapes_text_iff (ht : Load.fileText bytes = .ok text) :
    (∃ x, Escapes room bytes x) ↔ ∃ l, Json.read room text = .error (.limit l) := by
  constructor
  · rintro ⟨x, he | ⟨ht', hj⟩⟩
    · rw [Load.fileText_eq_error_iff.mpr he] at ht
      cases ht
    · obtain rfl := Except.ok.inj (ht.symm.trans ht')
      exact ⟨_, hj⟩
  · rintro ⟨l, hj⟩
    exact ⟨_, .limit ht hj⟩

variable (directory : String) (vars : Variables) (overrides : Overrides)

section

variable (hfile : files.content? (.ofText ProjectFile.name) = .ok (some bytes))

include hfile

theorem resolve_escapes {x : Defect} (h : Escapes room bytes x) :
    resolve room directory files vars overrides = .error (.unforeseen x) := by
  cases h with
  | undecodable hd =>
    simp only [resolve, ProjectFile.read, hfile, Load.fileText_eq_error_iff.mpr hd]
  | limit ht hj =>
    simp only [resolve, ProjectFile.read, hfile, ht, ProjectFile.parse, hj, Except.map]

theorem resolve_no_json {e : Json.Error} (ht : Load.fileText bytes = .ok text)
    (hj : Json.read room text = .error (.error e)) :
    resolve room directory files vars overrides =
      .error (.reported (.invalidJson (filePlace directory) e)) := by
  simp only [resolve, ProjectFile.read, hfile, ht, ProjectFile.parse, hj, filePlace, Except.map]

theorem resolve_no_object {v : Value} (ht : Load.fileText bytes = .ok text)
    (hj : Json.read room text = .ok v) (hv : ∀ es, v ≠ .map es) :
    resolve room directory files vars overrides =
      .error (.reported (.notObject (filePlace directory))) := by
  have hparse : ProjectFile.parse room (filePlace directory) text =
      .error (.reported (.notObject (filePlace directory))) := by
    cases v with
    | map es => exact absurd rfl (hv es)
    | _ => simp only [ProjectFile.parse, hj]
  unfold filePlace at hparse
  simp only [resolve, ProjectFile.read, hfile, ht, hparse, filePlace, Except.map]

theorem resolve_object {es : Entries} (ht : Load.fileText bytes = .ok text)
    (hj : Json.read room text = .ok (.map es)) :
    (∃ s, resolve room directory files vars overrides = .ok s) ∨
      ∃ rs, resolve room directory files vars overrides = .error (.reported (.invalid rs)) := by
  have hgives : ProjectFile.Gives room files es := .object hfile ht hj
  have h := resolve_eq (l := ⟨es, vars, overrides⟩) hgives directory
  dsimp only at h
  rw [h]
  cases settle (Layers.effective ⟨es, vars, overrides⟩) with
  | ok s => exact .inl ⟨s, rfl⟩
  | error rs => exact .inr ⟨rs, rfl⟩

theorem answers_of_text (ht : Load.fileText bytes = .ok text)
    (hlimit : ∀ l, Json.read room text ≠ .error (.limit l)) :
    Answers (resolve room directory files vars overrides) := by
  cases hj : Json.read room text with
  | error stop =>
    cases stop with
    | limit l => exact absurd hj (hlimit l)
    | error e => exact .inr ⟨_, resolve_no_json directory vars overrides hfile ht hj⟩
  | ok v =>
    by_cases hv : ∃ es, v = .map es
    · obtain ⟨es, rfl⟩ := hv
      rcases resolve_object directory vars overrides hfile ht hj with hs | ⟨rs, hrs⟩
      · exact .inl hs
      · exact .inr ⟨_, hrs⟩
    · have hne : ∀ es, v ≠ .map es := fun es h => hv ⟨es, h⟩
      exact .inr ⟨_, resolve_no_object directory vars overrides hfile ht hj hne⟩

theorem answers_or_escapes : Answers (resolve room directory files vars overrides) ∨
    ∃ x, Escapes room bytes x := by
  cases hd : Text.decodeUtf8 bytes with
  | error e => exact .inr ⟨_, .undecodable hd⟩
  | ok cs =>
    have ht := Load.fileText_eq hd
    by_cases hlimit : ∃ l, Json.read room (String.ofList (Text.unifyLineEnds cs)) =
      .error (.limit l)
    · exact .inr ((escapes_text_iff ht).mpr hlimit)
    · exact .inl (answers_of_text directory vars overrides hfile ht fun l hl => hlimit ⟨l, hl⟩)

theorem not_answers_of_escapes {x : Defect} (h : Escapes room bytes x) :
    ¬ Answers (resolve room directory files vars overrides) := by
  rw [resolve_escapes directory vars overrides hfile h]
  rintro (⟨s, hs⟩ | ⟨e, he⟩)
  · cases hs
  · cases he

theorem resolve_unforeseen_iff {x : Defect} :
    resolve room directory files vars overrides = .error (.unforeseen x) ↔
      Escapes room bytes x := by
  constructor
  · intro h
    have hcases : Answers (resolve room directory files vars overrides) ∨ _ :=
      answers_or_escapes directory vars overrides hfile
    rcases hcases with (⟨s, hs⟩ | ⟨e, he⟩) | ⟨y, hy⟩
    · cases h.symm.trans hs
    · cases h.symm.trans he
    · have heq := h.symm.trans (resolve_escapes directory vars overrides hfile hy)
      rwa [Failure.unforeseen.inj (Except.error.inj heq)]
  · exact resolve_escapes directory vars overrides hfile

theorem answers_iff : Answers (resolve room directory files vars overrides) ↔
    SpellText bytes ∧
      ∀ text l, Load.fileText bytes = .ok text → Json.read room text ≠ .error (.limit l) := by
  rw [spellText_iff]
  constructor
  · intro h
    have hnone : ∀ x, ¬ Escapes room bytes x := fun x hx =>
      not_answers_of_escapes directory vars overrides hfile hx h
    refine ⟨?_, fun text l ht hj => hnone _ (.limit ht hj)⟩
    cases ht : Load.fileText bytes with
    | ok text => exact ⟨text, rfl⟩
    | error e => exact absurd (.undecodable (Load.fileText_eq_error_iff.mp ht)) (hnone _)
  · rintro ⟨⟨text, ht⟩, hlimit⟩
    exact answers_of_text directory vars overrides hfile ht fun l => hlimit text l ht

/-- A regular project file leads to settings or to an error that is told, exactly if its bytes are a
text that JSON does not break off at a limit. Which error it is, is settled by the text. -/
theorem config_errors_told_iff (room : Nat) :
    (Answers (resolve room directory files vars overrides) ↔ SpellText bytes ∧
      ∀ text l, Load.fileText bytes = .ok text → Json.read room text ≠ .error (.limit l)) ∧
    (∀ x, resolve room directory files vars overrides = .error (.unforeseen x) ↔
      Escapes room bytes x) ∧
    ∀ text, Load.fileText bytes = .ok text →
      (∀ e, Json.read room text = .error (.error e) →
        resolve room directory files vars overrides =
          .error (.reported (.invalidJson (filePlace directory) e))) ∧
      (∀ v, Json.read room text = .ok v → (∀ es, v ≠ .map es) →
        resolve room directory files vars overrides =
          .error (.reported (.notObject (filePlace directory)))) ∧
      ∀ es, Json.read room text = .ok (.map es) →
        (∃ s, resolve room directory files vars overrides = .ok s) ∨
          ∃ rs, resolve room directory files vars overrides = .error (.reported (.invalid rs)) :=
  ⟨answers_iff directory vars overrides hfile,
    fun _ => resolve_unforeseen_iff directory vars overrides hfile,
    fun _ ht => ⟨fun _ hj => resolve_no_json directory vars overrides hfile ht hj,
      fun _ hj hv => resolve_no_object directory vars overrides hfile ht hj hv,
      fun _ hj => resolve_object directory vars overrides hfile ht hj⟩⟩

end

def listText : String := "[\"timeout\", 5]"

def listFiles : FileTree := ⟨[(⟨"", ["oasir.json"]⟩, .file listText.toUTF8.toList)]⟩

/-- A list in the project file is told, with the place of the file. -/
theorem list_config_told :
    listFiles.content? (.ofText ProjectFile.name) = .ok (some listText.toUTF8.toList) ∧
    resolve 900 "/work" listFiles [] .none = .error (.reported (.notObject "/work/oasir.json")) ∧
    Answers (resolve 900 "/work" listFiles [] .none) := by
  have hfile : listFiles.content? (.ofText ProjectFile.name) =
      .ok (some listText.toUTF8.toList) := rfl
  have htext : Load.fileText listText.toUTF8.toList = .ok listText :=
    Load.fileText_bytes (by decide +kernel)
  have hjson : Json.read 900 listText = .ok (.seq [.str "timeout", .int 5]) := by decide +kernel
  have hplace : filePlace "/work" = "/work/oasir.json" := by decide +kernel
  obtain ⟨hanswers, -, htold⟩ := config_errors_told_iff "/work" [] .none hfile 900
  refine ⟨hfile, hplace ▸ (htold listText htext).2.1 _ hjson nofun,
    hanswers.mpr ⟨⟨listText, rfl⟩, fun text l ht hl => ?_⟩⟩
  obtain rfl := Except.ok.inj (htext.symm.trans ht)
  cases hjson.symm.trans hl

def brokenBytes : List UInt8 := [0x7b, 0x22, 0x61, 0xe9]

def brokenFiles : FileTree := ⟨[(⟨"", ["oasir.json"]⟩, .file brokenBytes)]⟩

theorem broken_character_escapes :
    resolve 900 "/work" brokenFiles [] .none =
        .error (.unforeseen (.undecodable ⟨.endOfData, 3, 0xe9, 1⟩)) ∧
      ¬ Answers (resolve 900 "/work" brokenFiles [] .none) := by
  have h : resolve 900 "/work" brokenFiles [] .none =
      .error (.unforeseen (.undecodable ⟨.endOfData, 3, 0xe9, 1⟩)) := by decide +kernel
  refine ⟨h, ?_⟩
  rintro (⟨s, hs⟩ | ⟨e, he⟩)
  · cases h.symm.trans hs
  · cases h.symm.trans he

end Settings

end OpenApiIR
