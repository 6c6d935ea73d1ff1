import OpenApiIR.Proofs.FormatHint
import OpenApiIR.Proofs.LetterCase

/-! What the case of letters in a content type decides. A format is recognised by its word in small
letters, so a reply is loaded by other rules when the letters of its content type are changed,
unless no format is named at all. Main statement: which replies are loaded alike, for one body and
for every body. The suffix of a file counts in any case. -/

namespace OpenApiIR

namespace Text

/-- Equal but for the case of ASCII letters. -/
def Recased (s t : String) : Prop := s.toList.map Char.toLower = t.toList.map Char.toLower

instance (s t : String) : Decidable (Recased s t) := inferInstanceAs (Decidable (_ = _))

def small (s : String) : String := String.ofList (s.toList.map Char.toLower)

def large (s : String) : String := String.ofList (s.toList.map Char.toUpper)

variable {s t : String} {part cs : List Char}

theorem recased_small (s : String) : Recased s (small s) := by
  simp [Recased, small, Function.comp_def]

theorem recased_large (s : String) : Recased s (large s) := by
  simp [Recased, large, Function.comp_def]

theorem contains_iff : contains part cs = true ↔ part <:+: cs := by
  induction cs with
  | nil => simp [contains]
  | cons c rest ih =>
    rw [contains, Bool.or_eq_true, ih, List.isPrefixOf_iff_prefix, List.infix_cons_iff]

theorem lowerLetter_toLower (c : Char) : lowerLetter c.toLower = lowerLetter c := by
  by_cases hc : c.isUpper = true
  · have halpha : c.isAlpha = true := by simp [Char.isAlpha, hc]
    have hsmall : c.toLower.isAlpha = true := by rw [Char.isAlpha_toLower_eq_isAlpha, halpha]
    rw [lowerLetter_of_ascii (isAscii_of_isAlpha halpha),
      lowerLetter_of_ascii (isAscii_of_isAlpha hsmall),
      Char.toLower_toLower_eq_toLower]
  · rw [Char.toLower_eq_of_not_isUpper hc]

theorem lower_small (s : String) : lower (small s) = lower s := by
  rw [← String.toList_inj, toList_lower, toList_lower, small, String.toList_ofList,
    List.flatMap_map]
  exact List.flatMap_congr fun c _ => lowerLetter_toLower c

theorem Recased.lower_eq (h : Recased s t) : lower s = lower t := by
  have hsmall : small s = small t := congrArg String.ofList h
  rw [← lower_small s, ← lower_small t, hsmall]

end Text

namespace Path

theorem toLower_eq_dot_iff (c : Char) : c.toLower = '.' ↔ c = '.' := by
  by_cases hc : c.isUpper = true
  · have hsmall : c.toLower.isAlpha = true := by
      rw [Char.isAlpha_toLower_eq_isAlpha]
      simp [Char.isAlpha, hc]
    constructor <;> intro h
    · rw [h] at hsmall
      cases hsmall
    · rw [h] at hc
      cases hc
  · rw [Char.toLower_eq_of_not_isUpper hc]

theorem suffixOf_map_toLower (cs : List Char) :
    suffixOf (cs.map Char.toLower) = (suffixOf cs).map Char.toLower := by
  have hdot : ((fun c : Char => decide (c ≠ '.')) ∘ Char.toLower) = fun c => decide (c ≠ '.') := by
    funext c
    simp [toLower_eq_dot_iff]
  simp only [suffixOf, ← List.map_reverse, List.takeWhile_map, hdot, List.isEmpty_map,
    List.length_map]
  split
  · rfl
  · rfl

theorem suffix_eq_of_recased {p q : Path} (h : Text.Recased p.name q.name) :
    p.suffix = q.suffix := by
  refine Text.Recased.lower_eq ?_
  rw [Text.Recased, String.toList_ofList, String.toList_ofList, ← suffixOf_map_toLower, h,
    suffixOf_map_toLower]

end Path

namespace Load

def formatWords : List String := ["json", "yaml", "yml"]

def Names (word contentType : String) : Prop := word.toList <:+: contentType.toList

instance (word contentType : String) : Decidable (Names word contentType) :=
  inferInstanceAs (Decidable (word.toList <:+: contentType.toList))

/-- No format is named, in whatever case of letters. -/
def NamesNoFormat (contentType : String) : Prop :=
  ∀ word ∈ formatWords, ¬ Names word (Text.small contentType)

def contentType (headers : List (String × String)) : String := header headers "content-type"

def Replied (w : World) (q : Request) (headers : List (String × String)) (body : String) : Prop :=
  w.network q = .answer 200 headers body

variable {ct word url body : String} {headers headers' : List (String × String)} {w : World}
variable {timeout : Binary64} {followRedirects : Bool} {room : Nat}

theorem mentions_iff : Text.contains word.toList ct.toList = true ↔ Names word ct :=
  Text.contains_iff

theorem hintOfContentType_json_iff : hintOfContentType ct = .json ↔ Names "json" ct := by
  simp only [hintOfContentType, mentions_iff]
  by_cases hjson : Names "json" ct
  · simp [hjson]
  · by_cases hyaml : Names "yaml" ct ∨ Names "yml" ct <;> simp [hjson, hyaml]

theorem hintOfContentType_either_iff :
    hintOfContentType ct = .either ↔ ∀ word ∈ formatWords, ¬ Names word ct := by
  simp only [hintOfContentType, mentions_iff, formatWords, List.forall_mem_cons]
  by_cases hjson : Names "json" ct
  · rw [if_pos hjson]
    exact iff_of_false nofun fun h => h.1 hjson
  · rw [if_neg hjson]
    by_cases hyaml : Names "yaml" ct ∨ Names "yml" ct
    · rw [if_pos hyaml]
      exact iff_of_false nofun fun h => hyaml.elim h.2.1 h.2.2.1
    · rw [if_neg hyaml]
      exact iff_of_true rfl ⟨hjson, fun h => hyaml (.inl h), fun h => hyaml (.inr h), nofun⟩

theorem map_toLower_word (hw : word ∈ formatWords) :
    word.toList.map Char.toLower = word.toList := by
  have hall : ∀ word ∈ formatWords, word.toList.map Char.toLower = word.toList := by decide +kernel
  exact hall word hw

theorem names_small (hw : word ∈ formatWords) (h : Names word ct) : Names word (Text.small ct) := by
  have hmap := List.IsInfix.map Char.toLower h
  rw [map_toLower_word hw] at hmap
  simpa [Names, Text.small] using hmap

theorem not_names_large (hw : word ∈ formatWords) : ¬ Names word (Text.large ct) := by
  have hall : ∀ word ∈ formatWords, word.toList.any Char.isLower = true :=
    List.all_iff_forall_prop.mp (by decide +kernel)
  obtain ⟨c, hc, hlower⟩ := List.any_eq_true.mp (hall word hw)
  intro h
  rw [Names, Text.large, String.toList_ofList] at h
  obtain ⟨d, -, rfl⟩ := List.mem_map.mp (h.mem hc)
  rw [Char.isLower_toUpper_eq_false] at hlower
  cases hlower

theorem NamesNoFormat.hint (h : NamesNoFormat ct) : hintOfContentType ct = .either :=
  hintOfContentType_either_iff.mpr fun word hw hn => h word hw (names_small hw hn)

theorem NamesNoFormat.recased {ct' : String} (h : NamesNoFormat ct) (hr : Text.Recased ct ct') :
    NamesNoFormat ct' := by
  have hsmall : Text.small ct' = Text.small ct := (congrArg String.ofList hr).symm
  intro word hw
  rw [hsmall]
  exact h word hw

theorem contentType_single (value : String) : contentType [("content-type", value)] = value := by
  have hname : Text.lower "content-type" = "content-type" := by decide +kernel
  simp [contentType, header, hname, Text.join]

theorem load_replied (hurl : Source.ofText url = .url)
    (h : Replied w ⟨url, timeout, followRedirects⟩ headers body) :
    load w timeout followRedirects url =
      decode w.room (hintOfContentType (contentType headers)) url body :=
  loadWith_gives (readYaml w.room) (.url hurl h)

/-- Two replies with status 200 and this body are loaded alike, whatever else is in their worlds. -/
def LoadAlike (room : Nat) (url : String) (timeout : Binary64) (followRedirects : Bool)
    (headers headers' : List (String × String)) (body : String) : Prop :=
  ∀ w w', w.room = room → w'.room = room → Replied w ⟨url, timeout, followRedirects⟩ headers body →
    Replied w' ⟨url, timeout, followRedirects⟩ headers' body →
    load w timeout followRedirects url = load w' timeout followRedirects url

def answering (room : Nat) (headers : List (String × String)) (body : String) : World :=
  ⟨.empty, .ok "", fun _ => .answer 200 headers body, room⟩

def hintOf (headers : List (String × String)) : FormatHint :=
  hintOfContentType (contentType headers)

section

variable (hurl : Source.ofText url = .url)

include hurl

theorem loadAlike_iff_decode : LoadAlike room url timeout followRedirects headers headers' body ↔
    decode room (hintOf headers) url body = decode room (hintOf headers') url body := by
  constructor
  · intro h
    have hw : Replied (answering room headers body) ⟨url, timeout, followRedirects⟩ headers body :=
      rfl
    have hw' : Replied (answering room headers' body) ⟨url, timeout, followRedirects⟩ headers'
      body := rfl
    have halike := h _ _ rfl rfl hw hw'
    rwa [load_replied hurl hw, load_replied hurl hw'] at halike
  · intro h w w' hroom hroom' hw hw'
    rw [load_replied hurl hw, load_replied hurl hw', hroom, hroom']
    exact h

theorem loadAlike_iff : LoadAlike room url timeout followRedirects headers headers' body ↔
    ReadAlike room body (hintOf headers) (hintOf headers') ∨
      ReadAlike room body (hintOf headers') (hintOf headers) := by
  rw [loadAlike_iff_decode hurl, decode_eq_iff]

theorem every_body_iff :
    (∀ body, LoadAlike room url timeout followRedirects headers headers' body) ↔
    hintOf headers = hintOf headers' := by
  constructor
  · intro h
    exact decode_stray_inj ((loadAlike_iff_decode hurl).mp (h "@"))
  · intro h body
    rw [loadAlike_iff_decode hurl, h]

theorem every_case_iff : (∀ headers', Text.Recased (contentType headers) (contentType headers') →
      ∀ body, LoadAlike room url timeout followRedirects headers headers' body) ↔
    NamesNoFormat (contentType headers) := by
  constructor
  · intro h word hw hnames
    have alike : ∀ value, Text.Recased (contentType headers) value →
        hintOf headers = hintOfContentType value := by
      intro value hr
      rw [← contentType_single value] at hr
      have heq := (every_body_iff hurl).mp (h _ hr)
      rwa [hintOf, hintOf, contentType_single] at heq
    -- In capitals no format is named, in small letters the word names one.
    have hlarge : hintOf headers = .either := by
      rw [alike _ (Text.recased_large _)]
      exact hintOfContentType_either_iff.mpr fun word hw => not_names_large hw
    have hsmall := alike _ (Text.recased_small _)
    rw [hlarge] at hsmall
    exact hintOfContentType_either_iff.mp hsmall.symm word hw hnames
  · intro h headers' hr
    refine (every_body_iff hurl).mpr ?_
    rw [hintOf, hintOf, h.hint, (h.recased hr).hint]

/-- A map in YAML that is no JSON is refused exactly if the word for JSON stands in small letters.
-/
theorem yaml_body {e : Json.Error} {d : Document} (hj : Json.read w.room body = .error (.error e))
    (hy : readYaml w.room body = .ok d) (hmap : d.graph.isMap d.root = true)
    (hw : Replied w ⟨url, timeout, followRedirects⟩ headers body) :
    load w timeout followRedirects url =
      if Names "json" (contentType headers) then .error (.reported ⟨url, .invalidJson e⟩)
        else .ok d := by
  rw [load_replied hurl hw]
  by_cases hn : Names "json" (contentType headers)
  · rw [if_pos hn, hintOfContentType_json_iff.mpr hn]
    exact decodeWith_undecodable url (.json rfl hj)
  · rw [if_neg hn]
    have hne := fun h => hn (hintOfContentType_json_iff.mp h)
    have hdecodes : Decodes (readYaml w.room) w.room (hintOfContentType (contentType headers)) body
        d := by
      cases hh : hintOfContentType (contentType headers) with
      | either => exact .yaml (.failed hj) hy
      | json => exact absurd hh hne
      | yaml => exact .yaml .leftOut hy
    exact (decodeWith_decodes url hdecodes).trans (requireMap_map url hmap)

/-- Content types that differ in the case of letters alone are loaded by the same rules only as long
as the same words for formats stand in small letters, and in every case only where no format is
named. Of files, the suffix counts in any case. -/
theorem content_type_case_counts (room : Nat) (timeout : Binary64) (followRedirects : Bool) :
    (∀ headers headers' body, LoadAlike room url timeout followRedirects headers headers' body ↔
      ReadAlike room body (hintOf headers) (hintOf headers') ∨
        ReadAlike room body (hintOf headers') (hintOf headers)) ∧
    (∀ headers headers',
      (∀ body, LoadAlike room url timeout followRedirects headers headers' body) ↔
        hintOf headers = hintOf headers') ∧
    (∀ headers, (∀ headers', Text.Recased (contentType headers) (contentType headers') →
      ∀ body, LoadAlike room url timeout followRedirects headers headers' body) ↔
        NamesNoFormat (contentType headers)) ∧
    (∀ w headers body e d, Json.read w.room body = .error (.error e) →
      readYaml w.room body = .ok d →
      d.graph.isMap d.root = true → Replied w ⟨url, timeout, followRedirects⟩ headers body →
      load w timeout followRedirects url =
        if Names "json" (contentType headers) then .error (.reported ⟨url, .invalidJson e⟩)
          else .ok d) ∧
    ∀ p q : Path, Text.Recased p.name q.name → ∀ decode source bytes,
      fromBytes decode source p.suffix bytes = fromBytes decode source q.suffix bytes := by
  refine ⟨fun _ _ _ => loadAlike_iff hurl, fun _ _ => every_body_iff hurl, fun _ =>
    every_case_iff hurl,
    fun w headers body e d hj hy hmap hw => yaml_body hurl hj hy hmap hw,
    fun p q h decode source bytes => ?_⟩
  rw [Path.suffix_eq_of_recased h]

end

def plainHeaders (value : String) : List (String × String) := [("content-type", value)]

theorem plain_text_in_any_case :
    Source.ofText "http://h/a" = .url ∧ NamesNoFormat (contentType (plainHeaders "text/plain")) ∧
    ∀ body, LoadAlike 900 "http://h/a" (.ofInt 30) true (plainHeaders "text/plain")
      (plainHeaders "Text/PLAIN") body := by
  have hurl : Source.ofText "http://h/a" = .url := by decide +kernel
  have hnames : NamesNoFormat (contentType (plainHeaders "text/plain")) := by
    rw [plainHeaders, contentType_single]
    exact List.all_iff_forall_prop.mp (by decide +kernel)
  have hrecased : Text.Recased (contentType (plainHeaders "text/plain"))
      (contentType (plainHeaders "Text/PLAIN")) := by
    rw [plainHeaders, plainHeaders, contentType_single, contentType_single]
    decide +kernel
  obtain ⟨-, -, hcase, -⟩ := content_type_case_counts hurl 900 (.ofInt 30) true
  exact ⟨hurl, hnames, (hcase _).mpr hnames _ hrecased⟩

/-- A type that is JSON in capitals lets a body in YAML through, which the same type in small
letters does not. -/
theorem capital_type_loads_apart :
    Text.Recased "application/json" "Application/JSON" ∧
    load (answering 900 (plainHeaders "application/json") "openapi: 3.0.0\n")
      (.ofInt 30) true "http://h/a" =
      .error (.reported ⟨"http://h/a", .invalidJson ⟨.value, 1, 1, 0⟩⟩) ∧
    load (answering 900 (plainHeaders "Application/JSON") "openapi: 3.0.0\n")
      (.ofInt 30) true "http://h/a" =
      .ok (.ofTree (.map [(.str "openapi", .str "3.0.0")])) ∧
    ¬ LoadAlike 900 "http://h/a" (.ofInt 30) true (plainHeaders "application/json")
      (plainHeaders "Application/JSON") "openapi: 3.0.0\n" := by
  have hsmall : load (answering 900 (plainHeaders "application/json") "openapi: 3.0.0\n")
      (.ofInt 30) true "http://h/a" =
      .error (.reported ⟨"http://h/a", .invalidJson ⟨.value, 1, 1, 0⟩⟩) := by
    decide +kernel
  have hlarge : load (answering 900 (plainHeaders "Application/JSON") "openapi: 3.0.0\n")
      (.ofInt 30) true "http://h/a" =
      .ok (.ofTree (.map [(.str "openapi", .str "3.0.0")])) := by
    decide +kernel
  refine ⟨by decide +kernel, hsmall, hlarge, fun h => ?_⟩
  have halike := h (answering 900 (plainHeaders "application/json") "openapi: 3.0.0\n")
    (answering 900 (plainHeaders "Application/JSON") "openapi: 3.0.0\n") rfl rfl rfl rfl
  rw [hsmall, hlarge] at halike
  cases halike

end Load

end OpenApiIR
