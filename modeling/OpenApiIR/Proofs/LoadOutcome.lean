import OpenApiIR.Proofs.Loading

/-! How a load ends. A source that can be read gives a text to the decoders, and a hint with it.
Main statement: with any reader of YAML, a load brings a map, or reports an error that carries its
source, or ends in a defect that comes out of one of its parts, and each exactly when its rules say
so. -/

namespace OpenApiIR

namespace Load

section Decoding

variable (yaml : YamlReader) (room : Nat)

/-- JSON has failed on a text, or the hint leaves it out; its error is kept for the message. -/
inductive LeavesToYaml (text : String) : FormatHint → Option Json.Error → Prop where
  | leftOut : LeavesToYaml text .yaml none
  | failed {e : Json.Error} : Json.read room text = .error (.error e) →
      LeavesToYaml text .either (some e)

inductive Decodes (hint : FormatHint) (text : String) : Document → Prop where
  | json {v : Value} : hint ≠ .yaml → Json.read room text = .ok v →
      Decodes hint text (.ofTreeIn room v)
  | yaml {json : Option Json.Error} {d : Document} : LeavesToYaml room text hint json →
      yaml text = .ok d → Decodes hint text d

def notMapName (d : Document) : String :=
  if d.graph.kindName d.root = Scalar.kindName .null then "empty document"
  else d.graph.kindName d.root

inductive Undecodable (hint : FormatHint) (text : String) : LoadFault → Prop where
  | json {e : Json.Error} : hint = .json → Json.read room text = .error (.error e) →
      Undecodable hint text (.invalidJson e)
  | yaml {json : Option Json.Error} {f : Yaml.Fault} : LeavesToYaml room text hint json →
      yaml text = .error (.reported f) → Undecodable hint text (.undecodable json f)
  | notMap {d : Document} : Decodes yaml room hint text d → d.graph.isMap d.root = false →
      Undecodable hint text (.notObject (notMapName d))

/-- A decoder breaks off: JSON at a limit, YAML at whatever its reader has no rule for. -/
inductive BreaksOff (hint : FormatHint) (text : String) : Defect → Prop where
  | json {l : Limit} : hint ≠ .yaml → Json.read room text = .error (.limit l) →
      BreaksOff hint text (.limit l)
  | yaml {json : Option Json.Error} {x : Defect} : LeavesToYaml room text hint json →
      yaml text = .error (.unforeseen x) → BreaksOff hint text x

variable {yaml room} {text : String} {hint : FormatHint} {d : Document}

theorem requireMap_map (source : String) (h : d.graph.isMap d.root = true) :
    requireMap source d = .ok d := by
  simp [requireMap, h]

theorem requireMap_not_map (source : String) (h : d.graph.isMap d.root = false) :
    requireMap source d = refuse source (.notObject (notMapName d)) := by
  simp [requireMap, h, notMapName]

theorem decodeWith_leaves {json : Option Json.Error} (source : String)
    (h : LeavesToYaml room text hint json) :
    decodeWith yaml room hint source text = decodeYaml yaml source text json := by
  cases h with
  | leftOut => rfl
  | failed h => simp [decodeWith, h]

theorem decodeWith_decodes (source : String) (h : Decodes yaml room hint text d) :
    decodeWith yaml room hint source text = requireMap source d := by
  cases h with
  | json hy h => cases hint <;> simp_all [decodeWith]
  | yaml hl h => rw [decodeWith_leaves source hl, decodeYaml, h]

theorem decodeWith_undecodable (source : String) {fault : LoadFault}
    (h : Undecodable yaml room hint text fault) :
    decodeWith yaml room hint source text = refuse source fault := by
  cases h with
  | json hj h => simp [decodeWith, hj, h]
  | yaml hl h => rw [decodeWith_leaves source hl, decodeYaml, h]
  | notMap hd hm => rw [decodeWith_decodes source hd, requireMap_not_map source hm]

theorem decodeWith_breaksOff (source : String) {x : Defect} (h : BreaksOff yaml room hint text x) :
    decodeWith yaml room hint source text = .error (.unforeseen x) := by
  cases h with
  | json hy h => cases hint <;> simp_all [decodeWith]
  | yaml hl h => rw [decodeWith_leaves source hl, decodeYaml, h]

theorem decoded_cases (yaml : YamlReader) (room : Nat) (hint : FormatHint) (text : String) :
    (∃ d, Decodes yaml room hint text d) ∨ (∃ fault, Undecodable yaml room hint text fault) ∨
      ∃ x, BreaksOff yaml room hint text x := by
  have left : ∀ {json : Option Json.Error}, LeavesToYaml room text hint json →
      (∃ d, Decodes yaml room hint text d) ∨ (∃ fault, Undecodable yaml room hint text fault) ∨
        ∃ x, BreaksOff yaml room hint text x := by
    intro json hl
    cases h : yaml text with
    | ok d => exact Or.inl ⟨d, .yaml hl h⟩
    | error e =>
      cases e with
      | reported f => exact Or.inr (Or.inl ⟨_, .yaml hl h⟩)
      | unforeseen x => exact Or.inr (Or.inr ⟨x, .yaml hl h⟩)
  by_cases hy : hint = .yaml
  · subst hy
    exact left .leftOut
  · cases h : Json.read room text with
    | ok v => exact Or.inl ⟨_, .json hy h⟩
    | error s =>
      cases s with
      | limit l => exact Or.inr (Or.inr ⟨_, .json hy h⟩)
      | error e =>
        cases hint with
        | yaml => exact absurd rfl hy
        | json => exact Or.inr (Or.inl ⟨_, .json rfl h⟩)
        | either => exact left (.failed h)

end Decoding

section Loads

variable (w : World) (timeout : Binary64) (followRedirects : Bool) (source : String)

/-- The text that a source gives to the decoders, and the hint that comes with it. -/
inductive Gives : FormatHint → String → Prop where
  | input {text : String} : Source.ofText source = .input → w.input = .ok text →
      Text.allBlank text = false → Gives .either text
  | url {headers : List (String × String)} {body : String} : Source.ofText source = .url →
      w.network ⟨source, timeout, followRedirects⟩ = .answer 200 headers body →
      Gives (hintOfContentType (header headers "content-type")) body
  | file {bytes : List UInt8} {text : String} : Source.ofText source = .file →
      w.files.content? (.ofText source) = .ok (some bytes) → fileText bytes = .ok text →
      Text.allBlank text = false → Gives (hintOfSuffix (Path.ofText source).suffix) text

variable (yaml : YamlReader)

/-- Why a source is refused: it gives no text, or one that is undecodable. -/
inductive Refuses : LoadFault → Prop where
  | inputFailed {reason : String} : Source.ofText source = .input →
      w.input = .error (.system reason) → Refuses (.inputFailed reason)
  | emptyInput {text : String} : Source.ofText source = .input → w.input = .ok text →
      Text.allBlank text = true → Refuses .emptyInput
  | network {reason : String} : Source.ofText source = .url →
      w.network ⟨source, timeout, followRedirects⟩ = .failure reason → Refuses (.network reason)
  | status {code : Int} {headers : List (String × String)} {body : String} :
      Source.ofText source = .url →
      w.network ⟨source, timeout, followRedirects⟩ = .answer code headers body → code ≠ 200 →
      Refuses (.status code)
  | notFound : Source.ofText source = .file → w.files.content? (.ofText source) = .ok none →
      Refuses .notFound
  | unreadable {bytes : List UInt8} {e : Text.Utf8Error} : Source.ofText source = .file →
      w.files.content? (.ofText source) = .ok (some bytes) → fileText bytes = .error e →
      Refuses (.unreadable e)
  | emptyFile {bytes : List UInt8} {text : String} : Source.ofText source = .file →
      w.files.content? (.ofText source) = .ok (some bytes) → fileText bytes = .ok text →
      Text.allBlank text = true → Refuses .emptyFile
  | undecodable {hint : FormatHint} {text : String} {fault : LoadFault} :
      Gives w timeout followRedirects source hint text →
      Undecodable yaml w.room hint text fault → Refuses fault

/-- The defects that a load passes on: of the input, the network and the files, whatever they are,
and of the decoders. -/
inductive Escapes : Defect → Prop where
  | input {what : String} : Source.ofText source = .input → w.input = .error (.trouble what) →
      Escapes (.foreign what)
  | network {what : String} : Source.ofText source = .url →
      w.network ⟨source, timeout, followRedirects⟩ = .trouble what → Escapes (.foreign what)
  | file {e : FileError} : Source.ofText source = .file →
      w.files.content? (.ofText source) = .error e → Escapes (.file e)
  | decoder {hint : FormatHint} {text : String} {x : Defect} :
      Gives w timeout followRedirects source hint text → BreaksOff yaml w.room hint text x →
      Escapes x

variable {w timeout followRedirects source yaml} {hint : FormatHint} {text : String}

theorem loadWith_gives (yaml : YamlReader) (h : Gives w timeout followRedirects source hint text) :
    loadWith yaml w timeout followRedirects source = decodeWith yaml w.room hint source text := by
  cases h with
  | input hs hi hb => simp [loadWith, hs, hi, fromInput, hb]
  | url hs hn => simp [loadWith, hs, hn, fromReply]
  | file hs hc ht hb => simp [loadWith, hs, hc, ht, hb, fromFile, fromBytes]

theorem loadWith_refuses {fault : LoadFault}
    (h : Refuses w timeout followRedirects source yaml fault) :
    loadWith yaml w timeout followRedirects source = refuse source fault := by
  cases h with
  | inputFailed hs hi => simp [loadWith, hs, hi, fromInput]
  | emptyInput hs hi hb => simp [loadWith, hs, hi, fromInput, hb]
  | network hs hn => simp [loadWith, hs, hn, fromReply]
  | status hs hn hc => simp [loadWith, hs, hn, fromReply, hc]
  | notFound hs hc => simp [loadWith, hs, hc, fromFile]
  | unreadable hs hc ht => simp [loadWith, hs, hc, ht, fromFile, fromBytes]
  | emptyFile hs hc ht hb => simp [loadWith, hs, hc, ht, hb, fromFile, fromBytes]
  | undecodable hg hu => rw [loadWith_gives yaml hg, decodeWith_undecodable source hu]

theorem loadWith_escapes {x : Defect} (h : Escapes w timeout followRedirects source yaml x) :
    loadWith yaml w timeout followRedirects source = .error (.unforeseen x) := by
  cases h with
  | input hs hi => simp [loadWith, hs, hi, fromInput]
  | network hs hn => simp [loadWith, hs, hn, fromReply]
  | file hs hc => simp [loadWith, hs, hc, fromFile]
  | decoder hg hb => rw [loadWith_gives yaml hg, decodeWith_breaksOff source hb]

theorem load_cases (w : World) (timeout : Binary64) (followRedirects : Bool) (source : String)
    (yaml : YamlReader) :
    (∃ hint text, Gives w timeout followRedirects source hint text) ∨
      (∃ fault, Refuses w timeout followRedirects source yaml fault) ∨
      ∃ x, Escapes w timeout followRedirects source yaml x := by
  cases hs : Source.ofText source with
  | input =>
    cases hi : w.input with
    | error fault =>
      cases fault with
      | system reason => exact Or.inr (Or.inl ⟨_, .inputFailed hs hi⟩)
      | trouble what => exact Or.inr (Or.inr ⟨_, .input hs hi⟩)
    | ok text =>
      cases hb : Text.allBlank text with
      | true => exact Or.inr (Or.inl ⟨_, .emptyInput hs hi hb⟩)
      | false => exact Or.inl ⟨_, _, .input hs hi hb⟩
  | url =>
    cases hn : w.network ⟨source, timeout, followRedirects⟩ with
    | failure reason => exact Or.inr (Or.inl ⟨_, .network hs hn⟩)
    | trouble what => exact Or.inr (Or.inr ⟨_, .network hs hn⟩)
    | answer code headers body =>
      by_cases hc : code = 200
      · subst hc
        exact Or.inl ⟨_, _, .url hs hn⟩
      · exact Or.inr (Or.inl ⟨_, .status hs hn hc⟩)
  | file =>
    cases hc : w.files.content? (.ofText source) with
    | error e => exact Or.inr (Or.inr ⟨_, .file hs hc⟩)
    | ok content =>
      cases content with
      | none => exact Or.inr (Or.inl ⟨_, .notFound hs hc⟩)
      | some bytes =>
        cases ht : fileText bytes with
        | error e => exact Or.inr (Or.inl ⟨_, .unreadable hs hc ht⟩)
        | ok text =>
          cases hb : Text.allBlank text with
          | true => exact Or.inr (Or.inl ⟨_, .emptyFile hs hc ht hb⟩)
          | false => exact Or.inl ⟨_, _, .file hs hc ht hb⟩

theorem loadWith_map {d : Document} (hg : Gives w timeout followRedirects source hint text)
    (hd : Decodes yaml w.room hint text d) (h : d.graph.isMap d.root = true) :
    loadWith yaml w timeout followRedirects source = .ok d := by
  rw [loadWith_gives yaml hg, decodeWith_decodes source hd, requireMap_map source h]

inductive Ends (yaml : YamlReader) (w : World) (timeout : Binary64) (followRedirects : Bool)
    (source : String) : Loaded → Prop where
  | map {hint : FormatHint} {text : String} {d : Document} :
      Gives w timeout followRedirects source hint text → Decodes yaml w.room hint text d →
      d.graph.isMap d.root = true → Ends yaml w timeout followRedirects source (.ok d)
  | refused {fault : LoadFault} : Refuses w timeout followRedirects source yaml fault →
      Ends yaml w timeout followRedirects source (.error (.reported ⟨source, fault⟩))
  | escaped {x : Defect} : Escapes w timeout followRedirects source yaml x →
      Ends yaml w timeout followRedirects source (.error (.unforeseen x))

theorem ends_refused {fault : LoadFault}
    (h : Refuses w timeout followRedirects source yaml fault) :
    Ends yaml w timeout followRedirects source
      (loadWith yaml w timeout followRedirects source) := by
  rw [loadWith_refuses h]
  exact .refused h

theorem ends_escaped {x : Defect} (h : Escapes w timeout followRedirects source yaml x) :
    Ends yaml w timeout followRedirects source
      (loadWith yaml w timeout followRedirects source) := by
  rw [loadWith_escapes h]
  exact .escaped h

/-- A load ends by one of the rules, so the rules of each ending are all that leads to it. -/
theorem load_ends (yaml : YamlReader) (w : World) (timeout : Binary64) (followRedirects : Bool)
    (source : String) :
    Ends yaml w timeout followRedirects source
      (loadWith yaml w timeout followRedirects source) := by
  rcases load_cases w timeout followRedirects source yaml with
    ⟨hint, text, hg⟩ | ⟨fault, hr⟩ | ⟨x, hx⟩
  -- A text is there, so the decoders decide; what they bring may still be no map.
  · rcases decoded_cases yaml w.room hint text with ⟨d, hd⟩ | ⟨fault, hu⟩ | ⟨x, hb⟩
    · cases hmap : d.graph.isMap d.root with
      | true =>
        rw [loadWith_map hg hd hmap]
        exact .map hg hd hmap
      | false => exact ends_refused (.undecodable hg (.notMap hd hmap))
    · exact ends_refused (.undecodable hg hu)
    · exact ends_escaped (.decoder hg hb)
  · exact ends_refused hr
  · exact ends_escaped hx

/-- A text on the standard input with a date in it whose month does not exist. -/
def dateWorld : World :=
  ⟨.empty, .ok "openapi: 3.0.0\ninfo: \x7bversion: 2001-13-01\x7d\n", fun _ => .failure "none",
    900⟩

end Loads

end Load

end OpenApiIR
