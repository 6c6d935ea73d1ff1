import OpenApiIR.Proofs.UnionInsertion
import OpenApiIR.Settings.Layers

/-! Which value of a setting counts. Of the layers that give one, the highest does, and the standard
value stands below all of them. Main statement: with a project file that is absent or an object,
settings are settled exactly when each effective value is one of its setting; else the settings
whose effective values are refused are named, and no others. What is shadowed, and what has no
setting's name, counts for nothing. -/

namespace OpenApiIR

/-- Greater than zero, by the exact value. What is not a number is not. -/
inductive Binary64.AboveZero : Binary64 → Prop where
  | infinite : AboveZero (.infinite false)
  | finite {s : Bool} {m : Nat} {e : Int} : 0 < units s m e → AboveZero (.finite s m e)

theorem Binary64.units_pos_iff (s : Bool) (m : Nat) (e : Int) :
    0 < units s m e ↔ s = false ∧ m ≠ 0 := by
  have hpower : 0 < twoTo (e - leastExponent) := Nat.pow_pos (by decide)
  by_cases hm : m = 0
  · subst hm
    cases s <;> simp [units]
  · have hprod : 0 < m * twoTo (e - leastExponent) := Nat.mul_pos (Nat.pos_of_ne_zero hm) hpower
    cases s with
    | false =>
      have hcast : (0 : Int) < m * twoTo (e - leastExponent) := by exact_mod_cast hprod
      simpa [units, hm] using hcast
    | true =>
      have hneg : ¬ 0 < units true m e := by
        simp only [units, if_true]
        omega
      simp [hneg]

theorem Binary64.isPositive_iff (x : Binary64) : x.isPositive = true ↔ x.AboveZero := by
  constructor
  · intro h
    cases x with
    | nan => cases h
    | infinite s =>
      obtain rfl : s = false := by simpa [isPositive] using h
      exact .infinite
    | finite s m e =>
      exact .finite ((units_pos_iff s m e).mpr (by simpa [isPositive] using h))
  · rintro (_ | h)
    · rfl
    · simpa [isPositive] using (units_pos_iff _ _ _).mp h

/-- The entries that the project file gives; where there is no file it gives none. -/
inductive ProjectFile.Gives (room : Nat) (files : FileTree) : Entries → Prop where
  | absent : files.content? (.ofText name) = .ok none → Gives room files []
  | object {bytes : List UInt8} {text : String} {es : Entries} :
      files.content? (.ofText name) = .ok (some bytes) → Load.fileText bytes = .ok text →
      Json.read room text = .ok (.map es) → Gives room files es

theorem ProjectFile.read_gives {room : Nat} {files : FileTree} {es : Entries}
    (h : Gives room files es) (directory : String) :
    ∃ given, read room directory files = .ok given ∧ given.getD [] = es := by
  cases h with
  | absent hc => exact ⟨none, by simp [read, hc], rfl⟩
  | object hc ht hj => exact ⟨some es, by simp [read, hc, ht, parse, hj, Except.map], rfl⟩

namespace Settings

inductive Layer where
  | commandLine
  | environment
  | projectFile
  deriving DecidableEq, Repr

/-- The layers that can give a value, the highest first. -/
def Layer.all : List Layer := [.commandLine, .environment, .projectFile]

def Layer.above : Layer → List Layer
  | .commandLine => []
  | .environment => [.commandLine]
  | .projectFile => [.commandLine, .environment]

structure Layers where
  project : Entries
  vars : Variables
  overrides : Overrides

namespace Layers

/-- The value that a layer gives to a setting. Following redirects is left to the project file. -/
def value? (l : Layers) : Layer → Setting → Option Value
  | .commandLine, .timeout => l.overrides.timeout
  | .commandLine, .mediaType => l.overrides.mediaType
  | .environment, .timeout => (l.vars.nonEmpty? timeoutVariable).map .str
  | .environment, .mediaType => (l.vars.nonEmpty? mediaTypeVariable).map .str
  | .projectFile, s => l.project.value? (.str s.name)
  | _, .followRedirects => none

def given? (l : Layers) (s : Setting) : Option Value := Layer.all.findSome? (l.value? · s)

def Shadowed (l : Layers) (layer : Layer) (s : Setting) : Prop :=
  ∃ higher ∈ layer.above, (l.value? higher s).isSome

/-- The second gives the same values as the first, except where the first has one in a higher layer.
-/
def AgreeInSight (l l' : Layers) : Prop :=
  ∀ layer s, l'.value? layer s = l.value? layer s ∨ l.Shadowed layer s

end Layers

def standardValue : Setting → Value
  | .timeout => .float standard.timeout
  | .followRedirects => .bool standard.followRedirects
  | .mediaType => .str standard.mediaType

def Layers.effective (l : Layers) (s : Setting) : Value := (l.given? s).getD (standardValue s)

/-- Each setting is what its raw value means. -/
structure Settles (raw : Setting → Value) (s : Settings) : Prop where
  timeout : timeoutOf (raw .timeout) = .ok s.timeout
  followRedirects : boolOf (raw .followRedirects) = .ok s.followRedirects
  mediaType : textOf (raw .mediaType) = .ok s.mediaType

/-- Why a raw value is none of the setting. -/
inductive Objects : Setting → Value → Objection → Prop where
  | timeout {v : Value} {o : Objection} : timeoutOf v = .error o → Objects .timeout v o
  | followRedirects {v : Value} {o : Objection} : boolOf v = .error o → Objects .followRedirects v o
  | mediaType {v : Value} {o : Objection} : textOf v = .error o → Objects .mediaType v o

/-- The refusals name each setting whose raw value is refused, once and with the reason, and no
other. -/
structure Blames (raw : Setting → Value) (rs : List Refusal) : Prop where
  refused : ∀ r, r ∈ rs ↔ Objects r.setting (raw r.setting) r.objection
  once : (rs.map (·.setting)).Sublist [.timeout, .followRedirects, .mediaType]

variable {l l' : Layers} {raw : Setting → Value} {rs : List Refusal} {s : Settings}

theorem value?_lay (setting other : Setting) (value : Option Value) (below : Entries) :
    (lay setting value below).value? (.str other.name) =
      if other = setting then value.or (below.value? (.str other.name))
      else below.value? (.str other.name) := by
  have hname : other.name = setting.name ↔ other = setting := by
    cases other <;> cases setting <;> decide
  cases value with
  | none => simp [lay]
  | some v => simp only [lay, Entries.value?_put, hname, Option.some_or]

theorem Layers.given?_eq_or (l : Layers) (s : Setting) : l.given? s =
    (l.value? .commandLine s).or ((l.value? .environment s).or (l.value? .projectFile s)) := by
  simp only [given?, Layer.all, List.findSome?_cons, List.findSome?_nil]
  cases l.value? .commandLine s <;> cases l.value? .environment s <;>
    cases l.value? .projectFile s <;> rfl

/-- Laying the layers over each other leaves the highest value on top. -/
theorem value?_layered (l : Layers) (s : Setting) :
    (layered l.project l.vars l.overrides).value? (.str s.name) = l.given? s := by
  rw [Layers.given?_eq_or]
  cases s <;> simp [layered, value?_lay, Layers.value?]

theorem coerce_timeout (v : Option Value) :
    orStandard timeoutOf standard.timeout v = timeoutOf (v.getD (standardValue .timeout)) := by
  cases v with
  | none => decide +kernel
  | some v => rfl

theorem coerce_followRedirects (v : Option Value) :
    orStandard boolOf standard.followRedirects v =
      boolOf (v.getD (standardValue .followRedirects)) := by
  cases v <;> rfl

theorem coerce_mediaType (v : Option Value) :
    orStandard textOf standard.mediaType v = textOf (v.getD (standardValue .mediaType)) := by
  cases v with
  | none => decide +kernel
  | some v => rfl

theorem mem_refusals {α : Type} {setting : Setting} {coerced : Except Objection α} {r : Refusal} :
    r ∈ refusals setting coerced ↔ r.setting = setting ∧ coerced = .error r.objection := by
  obtain ⟨name, objection⟩ := r
  cases coerced with
  | ok v => simp [refusals]
  | error o =>
    simp only [refusals, List.mem_singleton, Refusal.mk.injEq, Except.error.injEq]
    exact and_congr_right fun _ => eq_comm

theorem refusals_sublist {α : Type} (setting : Setting) (coerced : Except Objection α) :
    ((refusals setting coerced).map (·.setting)).Sublist [setting] := by
  cases coerced with
  | ok v => exact List.nil_sublist _
  | error o => exact List.Sublist.refl _

theorem blames_refusals (raw : Setting → Value) :
    Blames raw (refusals .timeout (timeoutOf (raw .timeout)) ++
      refusals .followRedirects (boolOf (raw .followRedirects)) ++
      refusals .mediaType (textOf (raw .mediaType))) := by
  constructor
  · intro r
    simp only [List.mem_append, mem_refusals]
    constructor
    · rintro ((⟨hs, ho⟩ | ⟨hs, ho⟩) | ⟨hs, ho⟩)
      · exact hs ▸ .timeout ho
      · exact hs ▸ .followRedirects ho
      · exact hs ▸ .mediaType ho
    · obtain ⟨setting, objection⟩ := r
      rintro (ho | ho | ho)
      · exact .inl (.inl ⟨rfl, ho⟩)
      · exact .inl (.inr ⟨rfl, ho⟩)
      · exact .inr ⟨rfl, ho⟩
  · simp only [List.map_append]
    exact ((refusals_sublist _ _).append (refusals_sublist _ _)).append (refusals_sublist _ _)

def settle (raw : Setting → Value) : Except (List Refusal) Settings :=
  match timeoutOf (raw .timeout), boolOf (raw .followRedirects), textOf (raw .mediaType) with
  | .ok t, .ok r, .ok m => .ok ⟨t, r, m⟩
  | t, r, m =>
    .error (refusals .timeout t ++ refusals .followRedirects r ++ refusals .mediaType m)

theorem ofEntries_eq (es : Entries) :
    ofEntries es = settle fun s => (es.value? (.str s.name)).getD (standardValue s) := by
  simp only [ofEntries, coerce_timeout, coerce_followRedirects, coerce_mediaType]
  rfl

theorem settle_eq_ok_iff : settle raw = .ok s ↔ Settles raw s := by
  constructor
  · intro h
    unfold settle at h
    split at h
    · rename_i t r m ht hr hm
      obtain rfl := Except.ok.inj h
      exact ⟨ht, hr, hm⟩
    · cases h
  · rintro ⟨ht, hr, hm⟩
    simp only [settle, ht, hr, hm]

theorem settle_blames (h : settle raw = .error rs) : Blames raw rs := by
  unfold settle at h
  split at h
  · cases h
  · obtain rfl := Except.error.inj h
    exact blames_refusals raw

theorem Settles.timeout_aboveZero (h : Settles raw s) : s.timeout.AboveZero := by
  have ht := h.timeout
  unfold timeoutOf at ht
  split at ht
  · rename_i x _
    by_cases hx : x.isPositive = true
    · rw [if_pos hx] at ht
      exact Except.ok.inj ht ▸ (Binary64.isPositive_iff x).mp hx
    · rw [if_neg hx] at ht
      cases ht
  · cases ht

theorem resolve_eq {room : Nat} {files : FileTree} (h : ProjectFile.Gives room files l.project)
    (directory : String) : resolve room directory files l.vars l.overrides =
      (settle l.effective).mapError fun rs => .reported (.invalid rs) := by
  obtain ⟨given, hread, hgiven⟩ := ProjectFile.read_gives h directory
  have hlayered : ofEntries (layered (given.getD []) l.vars l.overrides) = settle l.effective := by
    rw [hgiven, ofEntries_eq]
    simp only [value?_layered]
    rfl
  simp only [resolve, hread, hlayered]
  cases settle l.effective <;> rfl

theorem Layers.AgreeInSight.given?_eq (h : l.AgreeInSight l') (s : Setting) :
    l'.given? s = l.given? s := by
  have hcommand : l'.value? .commandLine s = l.value? .commandLine s := by
    rcases h .commandLine s with heq | ⟨higher, hmem, -⟩
    · exact heq
    · cases hmem
  rw [given?_eq_or, given?_eq_or, hcommand]
  cases hc : l.value? .commandLine s with
  | some v => rfl
  | none =>
    have henvironment : l'.value? .environment s = l.value? .environment s := by
      rcases h .environment s with heq | ⟨higher, hmem, hsome⟩
      · exact heq
      · obtain rfl := List.mem_singleton.mp hmem
        simp [hc] at hsome
    rw [henvironment]
    cases he : l.value? .environment s with
    | some v => rfl
    | none =>
      rcases h .projectFile s with heq | ⟨higher, hmem, hsome⟩
      · rw [heq]
      · rcases List.mem_cons.mp hmem with rfl | hmem
        · simp [hc] at hsome
        · obtain rfl := List.mem_singleton.mp hmem
          simp [he] at hsome

theorem Layers.AgreeInSight.effective_eq (h : l.AgreeInSight l') : l'.effective = l.effective := by
  funext s
  rw [effective, effective, h.given?_eq]

/-- A project file with a timeout that is no number, under a variable with one that is. -/
def shadowedText : String := "\x7b\"timeout\": \"soon\", \"media_type\": \"a/b\", \"colour\": 1\x7d"

def shadowedFiles : FileTree := ⟨[(⟨"", ["oasir.json"]⟩, .file shadowedText.toUTF8.toList)]⟩

def shadowedLayers : Layers :=
  ⟨[(.str "timeout", .str "soon"), (.str "media_type", .str "a/b"), (.str "colour", .int 1)],
    [("OASIR_TIMEOUT", "2.5"), ("OASIR_MEDIA_TYPE", "")], .none⟩

def plainText : String := "\x7b\"media_type\": \"a/b\"\x7d"

def plainFiles : FileTree := ⟨[(⟨"", ["oasir.json"]⟩, .file plainText.toUTF8.toList)]⟩

def plainLayers : Layers := ⟨[(.str "media_type", .str "a/b")], [("OASIR_TIMEOUT", "2.5")], .none⟩

end Settings

end OpenApiIR
