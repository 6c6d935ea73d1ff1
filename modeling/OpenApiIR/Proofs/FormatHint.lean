import OpenApiIR.Proofs.LoadOutcome

/-! What a format hint changes. The readings of one text under the three hints are compared with any
reader of YAML, so that what does not hang on it can be told. Main statements: a hint for JSON takes
just what is taken without a hint whatever that reader says, and without JSON in the text the two
other hints take the same; and which texts two hints tell apart. -/

namespace OpenApiIR

namespace Load

variable {source text : String} {hint hint' : FormatHint} {d : Document} {v : Value}
  {e : Json.Error}
variable {room : Nat} (yaml : YamlReader)

theorem decodeWith_of_json (source : String) (hj : Json.read room text = .ok v) (h : hint ≠ .yaml) :
    decodeWith yaml room hint source text = requireMap source (.ofTreeIn room v) :=
  decodeWith_decodes source (.json h hj)

theorem decodeWith_json_of_error (source : String) (hj : Json.read room text = .error (.error e)) :
    decodeWith yaml room .json source text = refuse source (.invalidJson e) :=
  decodeWith_undecodable source (.json rfl hj)

theorem decodeWith_either_of_error (source : String)
    (hj : Json.read room text = .error (.error e)) :
    decodeWith yaml room .either source text = decodeYaml yaml source text (some e) :=
  decodeWith_leaves source (.failed hj)

theorem decodeWith_of_limit (source : String) {l : Limit}
    (hj : Json.read room text = .error (.limit l)) (h : hint ≠ .yaml) :
    decodeWith yaml room hint source text = .error (.unforeseen (.limit l)) :=
  decodeWith_breaksOff source (.json h hj)

theorem isMap_ofTreeIn_iff :
    (Document.ofTreeIn room v).graph.isMap (Document.ofTreeIn room v).root = true ↔
      ∃ es, v = .map es := by
  have hview : ∀ es, Graph.view ⟨#[], room⟩ v = .map es ↔ v = .map es := by
    intro es
    cases v <;> simp [Graph.view]
  simp only [Document.ofTreeIn, Graph.isMap_iff, Graph.entries?_eq_some_iff, hview]

theorem requireMap_eq_ok_iff {d' : Document} :
    requireMap source d = .ok d' ↔ d.graph.isMap d.root = true ∧ d = d' := by
  cases hd : d.graph.isMap d.root with
  | true => simp [requireMap_map source hd]
  | false => simp [requireMap_not_map source hd, refuse]

theorem decodeYaml_eq_ok_iff {json : Option Json.Error} :
    decodeYaml yaml source text json = .ok d ↔ yaml text = .ok d ∧ d.graph.isMap d.root = true := by
  cases hy : yaml text with
  | ok d' =>
    simp only [decodeYaml, hy, requireMap_eq_ok_iff, Except.ok.injEq]
    constructor
    · rintro ⟨hmap, rfl⟩
      exact ⟨rfl, hmap⟩
    · rintro ⟨rfl, hmap⟩
      exact ⟨hmap, rfl⟩
  | error x => cases x <;> simp [decodeYaml, hy, refuse]

def TellsSource (source : String) (r : Loaded) : Prop :=
  ∀ e, r = .error (.reported e) → e.source = source

theorem refuse_tellsSource (source : String) (fault : LoadFault) :
    TellsSource source (refuse source fault) := by
  intro e h
  obtain rfl := Failure.reported.inj (Except.error.inj h)
  rfl

theorem unforeseen_tellsSource (source : String) (x : Defect) :
    TellsSource source (.error (.unforeseen x)) := by
  intro e h
  cases h

theorem requireMap_tellsSource (source : String) (d : Document) :
    TellsSource source (requireMap source d) := by
  cases hd : d.graph.isMap d.root with
  | true =>
    intro e h
    rw [requireMap_map source hd] at h
    cases h
  | false =>
    rw [requireMap_not_map source hd]
    exact refuse_tellsSource source _

theorem decodeWith_tellsSource (room : Nat) (hint : FormatHint) (source text : String) :
    TellsSource source (decodeWith yaml room hint source text) := by
  rcases decoded_cases yaml room hint text with ⟨d, hd⟩ | ⟨fault, hu⟩ | ⟨x, hb⟩
  · rw [decodeWith_decodes source hd]
    exact requireMap_tellsSource source d
  · rw [decodeWith_undecodable source hu]
    exact refuse_tellsSource source fault
  · rw [decodeWith_breaksOff source hb]
    exact unforeseen_tellsSource source x

/-- What is taken is a map, from JSON or from the reader of YAML, and which of the two hangs on the
hint. -/
theorem decodeWith_eq_ok_iff : decodeWith yaml room hint source text = .ok d ↔
    d.graph.isMap d.root = true ∧
      ((hint ≠ .yaml ∧ ∃ v, Json.read room text = .ok v ∧ Document.ofTreeIn room v = d) ∨
        (∃ json, LeavesToYaml room text hint json) ∧ yaml text = .ok d) := by
  constructor
  · intro h
    rcases decoded_cases yaml room hint text with ⟨d', hd⟩ | ⟨fault, hu⟩ | ⟨x, hb⟩
    · rw [decodeWith_decodes source hd, requireMap_eq_ok_iff] at h
      obtain ⟨hmap, rfl⟩ := h
      cases hd with
      | json hy hj => exact ⟨hmap, .inl ⟨hy, _, hj, rfl⟩⟩
      | yaml hl ho => exact ⟨hmap, .inr ⟨⟨_, hl⟩, ho⟩⟩
    · rw [decodeWith_undecodable source hu] at h
      cases h
    · rw [decodeWith_breaksOff source hb] at h
      cases h
  · rintro ⟨hmap, ⟨hne, v, hj, rfl⟩ | ⟨⟨json, hjson⟩, ho⟩⟩
    · rw [decodeWith_of_json yaml source hj hne, requireMap_map source hmap]
    · rw [decodeWith_leaves source hjson, decodeYaml_eq_ok_iff]
      exact ⟨ho, hmap⟩

theorem decodeWith_json_iff : decodeWith yaml room .json source text = .ok d ↔
    ∀ yaml', decodeWith yaml' room .either source text = .ok d := by
  constructor
  · intro h yaml'
    obtain ⟨hmap, ⟨-, v, hj, hd⟩ | ⟨⟨json, hl⟩, -⟩⟩ := (decodeWith_eq_ok_iff yaml).mp h
    · exact (decodeWith_eq_ok_iff yaml').mpr ⟨hmap, .inl ⟨nofun, v, hj, hd⟩⟩
    · cases hl
  · intro h
    -- A reader that takes nothing leaves JSON alone to take the text.
    let none : YamlReader := fun _ => .error (.reported .tag)
    obtain ⟨hmap, ⟨-, v, hj, hd⟩ | ⟨-, ho⟩⟩ := (decodeWith_eq_ok_iff none).mp (h none)
    · exact (decodeWith_eq_ok_iff yaml).mpr ⟨hmap, .inl ⟨nofun, v, hj, hd⟩⟩
    · cases ho

theorem decodeWith_either_iff (hj : Json.read room text = .error (.error e)) :
    decodeWith yaml room .either source text = .ok d ↔
      decodeWith yaml room .yaml source text = .ok d := by
  have hno : ¬ ∃ v, Json.read room text = .ok v ∧ Document.ofTreeIn room v = d := by
    rintro ⟨v, hv, -⟩
    cases hj.symm.trans hv
  have heither : ∃ json, LeavesToYaml room text .either json := ⟨some e, .failed hj⟩
  have hyaml : ∃ json, LeavesToYaml room text .yaml json := ⟨none, .leftOut⟩
  simp [decodeWith_eq_ok_iff, hno, heither, hyaml]

structure Narrows (room : Nat) (source text : String) : Prop where
  /-- What JSON alone takes is taken without a hint, whatever the reader of YAML says, and nothing
  else is. -/
  json_alone : ∀ d, decodeWith yaml room .json source text = .ok d ↔
    ∀ yaml', decodeWith yaml' room .either source text = .ok d
  falls_back : ∀ e, Json.read room text = .error (.error e) → ∀ d,
    decodeWith yaml room .either source text = .ok d ↔
      decodeWith yaml room .yaml source text = .ok d
  json_refuses : ∀ e, Json.read room text = .error (.error e) →
    decodeWith yaml room .json source text = .error (.reported ⟨source, .invalidJson e⟩)
  /-- JSON that is no object is refused by the same error, and the reader of YAML is not asked. -/
  not_object : ∀ v, Json.read room text = .ok v → (∀ es, v ≠ .map es) → ∀ yaml' hint, hint ≠ .yaml →
    decodeWith yaml' room hint source text =
      .error (.reported ⟨source, .notObject (notMapName (.ofTreeIn room v))⟩)
  /-- JSON beyond a limit is not refused, and the reader of YAML is not asked. -/
  limited : ∀ l, Json.read room text = .error (.limit l) → ∀ yaml' hint, hint ≠ .yaml →
    decodeWith yaml' room hint source text = .error (.unforeseen (.limit l))
  brings_map : ∀ hint d, decodeWith yaml room hint source text = .ok d →
    d.graph.isMap d.root = true
  tells_source : ∀ hint e, decodeWith yaml room hint source text = .error (.reported e) →
    e.source = source

/-- Hints narrow the decoding and change nothing else, whatever the reader of YAML is. -/
theorem hints_narrow (room : Nat) (source text : String) :
    (∀ hint, decode room hint source text = decodeWith (readYaml room) room hint source text) ∧
      ∀ yaml, Narrows yaml room source text := by
  refine ⟨fun hint => rfl, fun yaml => ?_⟩
  constructor
  case json_alone => exact fun d => decodeWith_json_iff yaml
  case falls_back => exact fun e hj d => decodeWith_either_iff yaml hj
  case json_refuses => exact fun e hj => decodeWith_json_of_error yaml source hj
  case not_object =>
    intro v hj hv yaml' hint hne
    have hmap : (Document.ofTreeIn room v).graph.isMap (Document.ofTreeIn room v).root = false := by
      rw [Bool.eq_false_iff, Ne, isMap_ofTreeIn_iff]
      rintro ⟨es, he⟩
      exact hv es he
    rw [decodeWith_of_json yaml' source hj hne, requireMap_not_map source hmap, refuse]
  case limited => exact fun l hj yaml' hint hne => decodeWith_of_limit yaml' source hj hne
  case brings_map => exact fun hint d h => ((decodeWith_eq_ok_iff yaml).mp h).1
  case tells_source => exact fun hint e => decodeWith_tellsSource yaml room hint source text e

/-- YAML that is no JSON is taken but under a hint for JSON. -/
theorem yaml_alone_narrowed :
    Json.read 900 "a: 1" = .error (.error ⟨.value, 1, 1, 0⟩) ∧
    decode 900 .json "a.txt" "a: 1" =
      .error (.reported ⟨"a.txt", .invalidJson ⟨.value, 1, 1, 0⟩⟩) ∧
    decode 900 .either "a.txt" "a: 1" = .ok (.ofTree (.map [(.str "a", .int 1)])) := by
  have hj : Json.read 900 "a: 1" = .error (.error ⟨.value, 1, 1, 0⟩) := by decide +kernel
  have hy : decode 900 .yaml "a.txt" "a: 1" = .ok (.ofTree (.map [(.str "a", .int 1)])) := by
    decide +kernel
  obtain ⟨hdecode, hnarrows⟩ := hints_narrow 900 "a.txt" "a: 1"
  have h := hnarrows (readYaml 900)
  rw [hdecode .yaml] at hy
  exact ⟨hj, (hdecode .json).trans (h.json_refuses _ hj),
    (hdecode .either).trans ((h.falls_back _ hj _).mpr hy)⟩

def longNumber : String := String.ofList (List.replicate (Limit.digits + 1) '1')

theorem readNumber?_ones {n : Nat} (h : Limit.digits < n) :
    Json.readNumber? (List.replicate n '1') = some (.error (.read n), []) := by
  obtain ⟨m, rfl⟩ : ∃ m, n = m + 1 := ⟨n - 1, by omega⟩
  have hdigit : Text.isDigit '1' = true := by decide
  have hwhole : Json.takeWhole (List.replicate (m + 1) '1') = (List.replicate (m + 1) '1', []) := by
    simp [Json.takeWhole, List.replicate_succ, hdigit]
  have hlimit : Limit.ofDigits? (m + 1) = some (.read (m + 1)) := by simp [Limit.ofDigits?, h]
  simp only [Json.readNumber?, List.replicate_succ] at hwhole ⊢
  simp [hwhole, Json.takeFraction, Json.takePower, hlimit]

theorem readChars_of_limit {rest : List Char} {l : Limit} (room : Nat)
    (h : Json.takeScalar ('1' :: rest) = .error (.limit l)) :
    Json.readChars room ('1' :: rest) = .error (.limit l) := by
  have hvalue : Json.readValue (2 * ('1' :: rest).length + 2) room ('1' :: rest) =
      .error (.limit l) := by
    simp [Json.readValue, h, Except.map]
  have hspace : Json.skipSpace ('1' :: rest) = '1' :: rest := rfl
  simp only [Json.readChars, hspace, hvalue, bind, Except.bind]
  rfl

theorem read_longNumber (room : Nat) :
    Json.read room longNumber = .error (.limit (.read (Limit.digits + 1))) := by
  have hnumber := readNumber?_ones (Nat.lt_succ_self Limit.digits)
  have hword : Json.readWord? (List.replicate (Limit.digits + 1) '1') = none := rfl
  have hscalar : Json.takeScalar (List.replicate (Limit.digits + 1) '1') =
      .error (.limit (.read (Limit.digits + 1))) := by
    rw [Json.takeScalar, hword]
    simp only [hnumber]
  rw [Json.read, longNumber, String.toList_ofList]
  rw [List.replicate_succ] at hscalar ⊢
  rw [readChars_of_limit room hscalar]
  rfl

/-- A whole number of so many digits is JSON and no object, but it is not refused. -/
theorem long_number_not_refused :
    Json.read 900 longNumber = .error (.limit (.read (Limit.digits + 1))) ∧
    (∀ hint, hint ≠ .yaml → decode 900 hint "a.txt" longNumber =
      .error (.unforeseen (.limit (.read (Limit.digits + 1))))) ∧
    ¬ ∃ e, decode 900 .json "a.txt" longNumber = .error (.reported e) := by
  have hj := read_longNumber 900
  have h : ∀ hint, hint ≠ .yaml → decode 900 hint "a.txt" longNumber =
      .error (.unforeseen (.limit (.read (Limit.digits + 1)))) :=
    fun hint hne => decodeWith_of_limit (readYaml 900) "a.txt" hj hne
  refine ⟨hj, h, ?_⟩
  rintro ⟨e, he⟩
  cases (h .json nofun).symm.trans he

/-- Two documents that give the same answer: one map, or two of other kinds of one name. -/
inductive AnswerAlike : Document → Document → Prop where
  | same (d : Document) : AnswerAlike d d
  | noMaps {d d' : Document} : d.graph.isMap d.root = false → d'.graph.isMap d'.root = false →
      notMapName d = notMapName d' → AnswerAlike d d'

theorem requireMap_eq_iff {d d' : Document} :
    requireMap source d = requireMap source d' ↔ AnswerAlike d d' := by
  constructor
  · intro h
    cases hd : d.graph.isMap d.root with
    | true =>
      rw [requireMap_map source hd] at h
      obtain ⟨-, rfl⟩ := requireMap_eq_ok_iff.mp h.symm
      exact .same d'
    | false =>
      cases hd' : d'.graph.isMap d'.root with
      | true =>
        rw [requireMap_map source hd'] at h
        obtain ⟨-, rfl⟩ := requireMap_eq_ok_iff.mp h
        exact .same d
      | false =>
        rw [requireMap_not_map source hd, requireMap_not_map source hd'] at h
        exact .noMaps hd hd' (by simpa [refuse] using h)
  · rintro (_ | ⟨hd, hd', hname⟩)
    · rfl
    · rw [requireMap_not_map source hd, requireMap_not_map source hd', hname]

/-- The text is read alike under the two hints; the second takes more of it to YAML. -/
inductive ReadAlike (room : Nat) (text : String) : FormatHint → FormatHint → Prop where
  | same (hint : FormatHint) : ReadAlike room text hint hint
  | json {v : Value} : Json.read room text = .ok v → ReadAlike room text .json .either
  | limited {l : Limit} : Json.read room text = .error (.limit l) →
    ReadAlike room text .json .either
  /-- The message of a fault tells whether JSON was tried. -/
  | noFault {e : Json.Error} : Json.read room text = .error (.error e) →
      (∀ f, readYaml room text ≠ .error (.reported f)) → ReadAlike room text .either .yaml
  | bothRead {hint : FormatHint} {v : Value} {d : Document} : hint ≠ .yaml →
      Json.read room text = .ok v → readYaml room text = .ok d →
      AnswerAlike (.ofTreeIn room v) d → ReadAlike room text hint .yaml
  | bothLimited {hint : FormatHint} {l : Limit} : hint ≠ .yaml →
      Json.read room text = .error (.limit l) →
      readYaml room text = .error (.unforeseen (.limit l)) → ReadAlike room text hint .yaml

theorem requireMap_eq_decodeYaml_iff {json : Option Json.Error} :
    requireMap source d = decodeYaml yaml source text json ↔
      ∃ d', yaml text = .ok d' ∧ AnswerAlike d d' := by
  cases hy : yaml text with
  | ok d' => simp [decodeYaml, hy, requireMap_eq_iff]
  | error f =>
    have hne : requireMap source d ≠ decodeYaml yaml source text json := by
      cases hd : d.graph.isMap d.root <;> cases f <;>
        simp [decodeYaml, hy, requireMap, hd, refuse]
    simp [hne]

theorem unforeseen_eq_decodeYaml_iff {x : Defect} {json : Option Json.Error} :
    .error (.unforeseen x) = decodeYaml yaml source text json ↔
      yaml text = .error (.unforeseen x) := by
  cases hy : yaml text with
  | ok d => cases hd : d.graph.isMap d.root <;> simp [decodeYaml, hy, requireMap, hd, refuse]
  | error f =>
    cases f with
    | reported f => simp [decodeYaml, hy, refuse]
    | unforeseen x' => simp [decodeYaml, hy, eq_comm]

theorem decodeYaml_eq_iff (e : Json.Error) :
    decodeYaml yaml source text (some e) = decodeYaml yaml source text none ↔
      ∀ f, yaml text ≠ .error (.reported f) := by
  cases hy : yaml text with
  | ok d => simp [decodeYaml, hy]
  | error f => cases f <;> simp [decodeYaml, hy, refuse]

theorem refuse_ne_decodeYaml (e : Json.Error) (json : Option Json.Error) :
    refuse source (.invalidJson e) ≠ decodeYaml yaml source text json := by
  cases hy : yaml text with
  | ok d => cases hd : d.graph.isMap d.root <;> simp [decodeYaml, hy, requireMap, hd, refuse]
  | error f => cases f <;> simp [decodeYaml, hy, refuse]

theorem decode_of_limit (source : String) {l : Limit} (hj : Json.read room text = .error (.limit l))
    (hne : hint ≠ .yaml) : decode room hint source text = .error (.unforeseen (.limit l)) :=
  decodeWith_of_limit (readYaml room) source hj hne

theorem decode_json_eq_either_iff :
    decode room .json source text = decode room .either source text ↔
      ReadAlike room text .json .either := by
  cases hj : Json.read room text with
  | ok v => exact iff_of_true (by simp only [decode, decodeWith, hj]) (.json hj)
  | error s =>
    cases s with
    | limit l =>
      have hjson : decode room .json source text = _ :=
        decode_of_limit source hj (by decide)
      have heither : decode room .either source text = _ :=
        decode_of_limit source hj (by decide)
      exact iff_of_true (hjson.trans heither.symm) (.limited hj)
    | error e =>
      refine iff_of_false ?_ ?_
      · rw [decode, decodeWith_json_of_error _ source hj, decodeWith_either_of_error _ source hj]
        exact refuse_ne_decodeYaml _ e _
      · intro h
        cases h with
        | json hv => cases hj.symm.trans hv
        | limited hl => cases hj.symm.trans hl

theorem decode_eq_yaml_iff_of_json (hj : Json.read room text = .ok v) (hne : hint ≠ .yaml) :
    decode room hint source text = decode room .yaml source text ↔
      ReadAlike room text hint .yaml := by
  have hread : decode room hint source text = requireMap source (.ofTreeIn room v) :=
    decodeWith_of_json (readYaml room) source hj hne
  have hyaml : decode room .yaml source text = decodeYaml (readYaml room) source text none := rfl
  rw [hread, hyaml, requireMap_eq_decodeYaml_iff]
  constructor
  · rintro ⟨d, hy, ha⟩
    exact .bothRead hne hj hy ha
  · intro h
    cases h with
    | same => exact absurd rfl hne
    | noFault he => cases hj.symm.trans he
    | bothRead _ hv hy ha =>
      obtain rfl := Except.ok.inj (hj.symm.trans hv)
      exact ⟨_, hy, ha⟩
    | bothLimited _ hl => cases hj.symm.trans hl

theorem decode_eq_yaml_iff_of_limit {l : Limit} (hj : Json.read room text = .error (.limit l))
    (hne : hint ≠ .yaml) : decode room hint source text = decode room .yaml source text ↔
      ReadAlike room text hint .yaml := by
  have hyaml : decode room .yaml source text = decodeYaml (readYaml room) source text none := rfl
  rw [decode_of_limit source hj hne, hyaml, unforeseen_eq_decodeYaml_iff]
  constructor
  · exact .bothLimited hne hj
  · intro h
    cases h with
    | same => exact absurd rfl hne
    | noFault he => cases hj.symm.trans he
    | bothRead _ hv => cases hj.symm.trans hv
    | bothLimited _ hl hy =>
      obtain rfl : l = _ := Json.Stop.limit.inj (Except.error.inj (hj.symm.trans hl))
      exact hy

theorem decode_either_eq_yaml_iff :
    decode room .either source text = decode room .yaml source text ↔
      ReadAlike room text .either .yaml := by
  cases hj : Json.read room text with
  | ok v => exact decode_eq_yaml_iff_of_json hj nofun
  | error s =>
    cases s with
    | limit l => exact decode_eq_yaml_iff_of_limit hj nofun
    | error e =>
      have hyaml : decode room .yaml source text =
        decodeYaml (readYaml room) source text none := rfl
      rw [hyaml, decode, decodeWith_either_of_error _ source hj, decodeYaml_eq_iff]
      constructor
      · exact fun hf => .noFault hj hf
      · intro h
        cases h with
        | noFault _ hf => exact hf
        | bothRead _ hv => cases hj.symm.trans hv
        | bothLimited _ hl => cases hj.symm.trans hl

theorem decode_json_eq_yaml_iff :
    decode room .json source text = decode room .yaml source text ↔
      ReadAlike room text .json .yaml := by
  cases hj : Json.read room text with
  | ok v => exact decode_eq_yaml_iff_of_json hj nofun
  | error s =>
    cases s with
    | limit l => exact decode_eq_yaml_iff_of_limit hj nofun
    | error e =>
      refine iff_of_false ?_ ?_
      · have hyaml : decode room .yaml source text = decodeYaml (readYaml room) source text none :=
          rfl
        rw [hyaml, decode, decodeWith_json_of_error _ source hj]
        exact refuse_ne_decodeYaml _ e _
      · intro h
        cases h with
        | bothRead _ hv => cases hj.symm.trans hv
        | bothLimited _ hl => cases hj.symm.trans hl

/-- Two hints make no difference to a text exactly if it is read alike under them. -/
theorem decode_eq_iff : decode room hint source text = decode room hint' source text ↔
    ReadAlike room text hint hint' ∨ ReadAlike room text hint' hint := by
  cases hint with
  | either =>
    cases hint' with
    | either => exact iff_of_true rfl (.inl (.same .either))
    | json =>
      rw [eq_comm, decode_json_eq_either_iff]
      exact (or_iff_right nofun).symm
    | yaml =>
      rw [decode_either_eq_yaml_iff]
      exact (or_iff_left nofun).symm
  | json =>
    cases hint' with
    | either =>
      rw [decode_json_eq_either_iff]
      exact (or_iff_left nofun).symm
    | json => exact iff_of_true rfl (.inl (.same .json))
    | yaml =>
      rw [decode_json_eq_yaml_iff]
      exact (or_iff_left nofun).symm
  | yaml =>
    cases hint' with
    | either =>
      rw [eq_comm, decode_either_eq_yaml_iff]
      exact (or_iff_right nofun).symm
    | json =>
      rw [eq_comm, decode_json_eq_yaml_iff]
      exact (or_iff_right nofun).symm
    | yaml => exact iff_of_true rfl (.inl (.same .yaml))

/-- No token and no value starts with this character, so a text of it is refused under each hint,
and each time with another message. -/
theorem decode_stray_inj (h : decode room hint source "@" = decode room hint' source "@") :
    hint = hint' := by
  have hj : Json.read room "@" = .error (.error ⟨.value, 1, 1, 0⟩) := by rfl
  have hy : readYaml room "@" = .error (.reported .strayCharacter) := by rfl
  cases hint <;> cases hint' <;> simp [decode, decodeWith, hj, decodeYaml, hy, refuse] at h ⊢

end Load

end OpenApiIR
