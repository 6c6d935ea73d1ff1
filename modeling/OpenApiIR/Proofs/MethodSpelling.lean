import OpenApiIR.Proofs.LetterCase
import OpenApiIR.Proofs.PathEntries

/-! Texts that name a method. A walk over a path item compares small letters, the resolution of a
single operation and the look-up of an endpoint compare capitals. Main statement: the two last agree
always, and the walk with them unless the text has a letter outside ASCII; four such letters occur.
-/

namespace OpenApiIR

namespace Method

variable {text : String} {m : Method} {c : Char}

/-- The walk over a path item takes the key for an operation of the method. -/
def WalkedAs (text : String) (m : Method) : Prop :=
  ∀ (sc : Scope) (mediaType path : String) (shared operation : Value) (part : Entries),
    sc.graph.entries? operation = some part →
    ¬ Endpoint.Breaks sc (Endpoint.subject path m) part shared →
    ∃ ep, (Endpoint.itemEntry sc mediaType path shared (.str text, operation)).value = [ep] ∧
      ep.method = m

/-- The resolution of a single operation takes the text for the method. -/
def AcceptedAs (text : String) (m : Method) : Prop :=
  ∀ (sc : Scope) (mediaType path : String) (operation shared : Value) (part : Entries),
    sc.graph.entries? operation = some part →
    ¬ Endpoint.Breaks sc (Endpoint.subject path m) part shared →
    ∃ r, Endpoint.resolveNamed sc mediaType path text operation shared = .ok r ∧ r.value.method = m

def LookedUpAs (text : String) (m : Method) : Prop :=
  ∀ (ir : IR) (path : String), ir.endpoint? text path = .ok (ir.endpointAt? m path)

/-- The i without a dot, the long s, and the two ligatures of s and t. -/
def strayLetters : List Char := ['\u0131', '\u017f', '\ufb05', '\ufb06']

/-- The capitals of a stray letter, and any other letter as it is. -/
def respellLetter (c : Char) : List Char := if c ∈ strayLetters then Text.upperLetter c else [c]

def respell (text : String) : String := String.ofList (text.toList.flatMap respellLetter)

def SpelledAs (cs : List Char) (m : Method) : Prop :=
  List.Forall₂ (fun n c => c = n ∨ c = n.toLower) m.name.toList cs

/-- How three readings of a text as a method agree, and where they part. -/
structure Readings (text : String) (m : Method) : Prop where
  lookedUp : LookedUpAs text m ↔ AcceptedAs text m
  walked : WalkedAs text m ↔ AcceptedAs text m ∧ ∀ c ∈ text.toList, c ∉ strayLetters
  accepted : AcceptedAs text m ↔ WalkedAs (respell text) m
  letters : WalkedAs text m ↔ SpelledAs text.toList m

theorem name_injective {n : Method} (h : m.name = n.name) : m = n :=
  key_injective (congrArg Text.lower h)

theorem ofName?_eq_some_iff (text : String) (m : Method) :
    ofName? text = some m ↔ Text.upper text = m.name := by
  rw [eq_comm (a := Text.upper text)]
  exact find?_eq_some_iff name_injective

def loneEndpoint (m : Method) : Endpoint := ⟨"", m, none, "", "", [], [], none, [], false⟩

theorem not_breaks_nothing (m : Method) :
    ¬ Endpoint.Breaks ⟨none, .empty⟩ (Endpoint.subject "" m) [] .null := by
  have hr : Endpoint.resolve ⟨none, .empty⟩ "" "" m (.map []) .null =
      .ok ⟨loneEndpoint m, .empty⟩ := rfl
  intro hb
  obtain ⟨l, hl⟩ := (Endpoint.halts_resolve rfl hr).mpr hb
  cases hl

theorem resolveNamed_unbroken {sc : Scope} {mediaType path : String} {operation shared : Value}
    {part : Entries} (hm : ofName? text = some m) (he : sc.graph.entries? operation = some part)
    (hb : ¬ Endpoint.Breaks sc (Endpoint.subject path m) part shared) :
    ∃ r, Endpoint.resolveNamed sc mediaType path text operation shared = .ok r ∧
      r.value.method = m := by
  obtain ⟨r, hr, hensured⟩ :=
    Endpoint.resolve_ensures mediaType path m shared (Graph.isMap_iff.mpr ⟨part, he⟩)
  have hnone := Report.not_halts_iff.mp (mt (Endpoint.halts_resolve he hr).mp hb)
  refine ⟨r, ?_, hensured.value.1⟩
  simp only [Endpoint.resolveNamed, hm, hr, bind, Except.bind, hnone]
  rfl

theorem walkedAs_iff : WalkedAs text m ↔ Text.lower text = Text.lower m.name := by
  constructor
  · intro h
    obtain ⟨ep, hvalue, hmethod⟩ :=
      h ⟨none, .empty⟩ "" "" .null (.map []) [] rfl (not_breaks_nothing m)
    have account := Endpoint.itemEntry_accounted ⟨none, .empty⟩ "" "" .null (.str text, .map [])
    by_cases hn : ∃ n, Endpoint.Spells (.str text) n
    · obtain ⟨n, hn⟩ := hn
      obtain ⟨ep', hvalue', hmethod', _⟩ := account.operation n [] hn rfl (not_breaks_nothing n)
      obtain rfl : ep = ep' := List.singleton_inj.mp (hvalue.symm.trans hvalue')
      obtain ⟨_, ht, hlower⟩ := hn
      cases ht
      rwa [← hmethod, hmethod']
    · have hnone := (account.other fun n hs => hn ⟨n, hs⟩).1
      rw [hvalue] at hnone
      cases hnone
  · intro h sc mediaType path shared operation part he hb
    obtain ⟨ep, hvalue, hmethod, _⟩ :=
      (Endpoint.itemEntry_accounted sc mediaType path shared (.str text, operation)).operation m
        part ⟨text, rfl, h⟩ he hb
    exact ⟨ep, hvalue, hmethod⟩

theorem acceptedAs_iff : AcceptedAs text m ↔ Text.upper text = m.name := by
  rw [← ofName?_eq_some_iff]
  constructor
  · intro h
    obtain ⟨r, hr, hmethod⟩ :=
      h ⟨none, .empty⟩ "" "" (.map []) .null [] rfl (not_breaks_nothing m)
    cases hn : ofName? text with
    | none => simp [Endpoint.resolveNamed, hn] at hr
    | some n =>
      have hmap : (Scope.mk none .empty).graph.entries? (.map []) = some [] := rfl
      obtain ⟨r', hr', hm⟩ := resolveNamed_unbroken hn hmap (not_breaks_nothing n)
      obtain rfl := Except.ok.inj (hr'.symm.trans hr)
      rw [← hmethod, hm]
  · intro h sc mediaType path operation shared part he hb
    exact resolveNamed_unbroken h he hb

def loneDocument (m : Method) : IR := ⟨none, ⟨"", "", none⟩, [], [loneEndpoint m], []⟩

/-- A document with one endpoint tells the methods apart. -/
theorem endpointAt?_lone {n : Method} :
    (loneDocument m).endpointAt? n "" = some (loneEndpoint m) ↔ n = m := by
  constructor
  · intro h
    unfold IR.endpointAt? at h
    have hfound := List.find?_some h
    exact (of_decide_eq_true hfound).1.symm
  · rintro rfl
    simp [IR.endpointAt?, loneDocument, loneEndpoint]

theorem lookedUpAs_iff : LookedUpAs text m ↔ AcceptedAs text m := by
  rw [acceptedAs_iff, ← ofName?_eq_some_iff]
  constructor
  · intro h
    have hlook := h (loneDocument m) ""
    rw [endpointAt?_lone.mpr rfl] at hlook
    unfold IR.endpoint? at hlook
    cases hn : ofName? text with
    | none => simp [hn] at hlook
    | some n =>
      simp only [hn] at hlook
      rw [endpointAt?_lone.mp (Except.ok.inj hlook)]
  · intro h ir path
    simp only [IR.endpoint?, h]

theorem isUpper_of_mem_name {n : Char} (h : n ∈ m.name.toList) : n.isUpper = true :=
  have hall : ∀ m : Method, ∀ n ∈ m.name.toList, n.isUpper = true := by
    intro m
    cases m <;> exact List.all_eq_true.mp (by decide +kernel)
  hall m n h

theorem isAscii_of_mem_name {n : Char} (h : n ∈ m.name.toList) : Text.IsAscii n :=
  Text.isAscii_of_isAlpha (by simp [Char.isAlpha, isUpper_of_mem_name h])

theorem upper_name (m : Method) : Text.upper m.name = m.name := by
  cases m <;> decide +kernel

/-- Of the letters that are raised into ASCII, the stray ones alone bring part of the name of a
method. -/
theorem stray_of_infix (m : Method) : ∀ c ∈ Text.raisesIntoAscii,
    Text.upperLetter c <:+: m.name.toList → c ∈ strayLetters := by
  cases m <;> exact List.all_iff_forall_prop.mp (by decide +kernel)

example : Text.upper "opt\u0131ons" = options.name ∧ Text.upper "po\ufb05" = post.name ∧
    Text.upper "po\ufb06" = post.name := by
  decide +kernel

theorem stray_outside_ascii : ∀ c ∈ strayLetters, ¬ Text.IsAscii c :=
  List.all_iff_forall_prop.mp (by decide +kernel)

theorem upperLetter_infix (hc : c ∈ text.toList) :
    Text.upperLetter c <:+: (Text.upper text).toList := by
  obtain ⟨before, after, hsplit⟩ := List.append_of_mem hc
  rw [Text.toList_upper, hsplit, List.flatMap_append, List.flatMap_cons, ← List.append_assoc]
  exact List.infix_append _ _ _

theorem ascii_or_stray (h : Text.upper text = m.name) (hc : c ∈ text.toList) :
    Text.IsAscii c ∨ c ∈ strayLetters := by
  have hinfix := upperLetter_infix hc
  rw [h] at hinfix
  refine (Text.ascii_of_upper (fun d hd => ?_) hc).imp_right fun hraised =>
    stray_of_infix m c hraised hinfix
  rw [h] at hd
  exact isAscii_of_mem_name hd

theorem ascii_of_lower (h : Text.lower text = Text.lower m.name) (hc : c ∈ text.toList) :
    Text.IsAscii c := by
  -- The Kelvin sign is excluded, as no method is written with a K.
  have hname : ∀ d ∈ (Text.lower m.name).toList, Text.IsAscii d ∧ d ≠ 'k' := by
    cases m <;> exact List.all_iff_forall_prop.mp (by decide +kernel)
  rw [← h] at hname
  refine (Text.ascii_of_lower (fun d hd => (hname d hd).1) hc).resolve_right fun hk => ?_
  obtain rfl := List.mem_singleton.mp hk
  refine (hname 'k' ?_).2 rfl
  rw [Text.toList_lower]
  exact List.mem_flatMap_of_mem hc (by decide +kernel)

theorem lower_eq_iff (h : ∀ c ∈ text.toList, Text.IsAscii c) :
    Text.lower text = Text.lower m.name ↔ Text.upper text = m.name := by
  rw [Text.lower_eq_lower_iff h fun n hn => isAscii_of_mem_name hn, upper_name]

theorem walkedAs_iff_acceptedAs :
    WalkedAs text m ↔ AcceptedAs text m ∧ ∀ c ∈ text.toList, c ∉ strayLetters := by
  rw [walkedAs_iff, acceptedAs_iff]
  constructor
  · intro h
    have hascii := fun c (hc : c ∈ text.toList) => ascii_of_lower h hc
    exact ⟨(lower_eq_iff hascii).mp h, fun c hc hstray =>
      stray_outside_ascii c hstray (hascii c hc)⟩
  · rintro ⟨h, hstray⟩
    exact (lower_eq_iff fun c hc => (ascii_or_stray h hc).resolve_right (hstray c hc)).mpr h

theorem upperLetter_respellLetter (c : Char) :
    (respellLetter c).flatMap Text.upperLetter = Text.upperLetter c := by
  unfold respellLetter
  split
  · rename_i h
    have hall : ∀ c ∈ strayLetters,
        (Text.upperLetter c).flatMap Text.upperLetter = Text.upperLetter c :=
      List.all_iff_forall_prop.mp (by decide +kernel)
    exact hall c h
  · exact List.flatMap_singleton _ _

theorem upper_respell (text : String) : Text.upper (respell text) = Text.upper text := by
  rw [← String.toList_inj, Text.toList_upper, Text.toList_upper, respell, String.toList_ofList,
    List.flatMap_assoc]
  exact List.flatMap_congr fun c _ => upperLetter_respellLetter c

theorem respell_not_stray (hc : c ∈ (respell text).toList) : c ∉ strayLetters := by
  rw [respell, String.toList_ofList] at hc
  obtain ⟨d, _, hd⟩ := List.mem_flatMap.mp hc
  unfold respellLetter at hd
  split at hd
  · rename_i h
    have hall : ∀ d ∈ strayLetters, (Text.upperLetter d).all (· ∉ strayLetters) = true :=
      List.all_iff_forall_prop.mp (by decide +kernel)
    exact List.all_iff_forall_prop.mp (hall d h) c hd
  · rename_i h
    rwa [List.mem_singleton.mp hd]

theorem acceptedAs_iff_walkedAs_respell : AcceptedAs text m ↔ WalkedAs (respell text) m := by
  rw [walkedAs_iff_acceptedAs, acceptedAs_iff, acceptedAs_iff, upper_respell]
  exact ⟨fun h => ⟨h, fun c hc => respell_not_stray hc⟩, And.left⟩

theorem spelledAs_iff {cs : List Char} :
    SpelledAs cs m ↔ cs.map Char.toLower = m.name.toList.map Char.toLower := by
  have hname : ∀ n ∈ m.name.toList, n.isUpper = true := fun n hn => isUpper_of_mem_name hn
  rw [eq_comm, ← List.forall₂_eq_eq_eq, List.forall₂_map_left_iff, List.forall₂_map_right_iff]
  constructor
  · intro h
    refine ((List.forall₂_and_left _ _).mpr ⟨hname, h⟩).imp fun n c hnc => ?_
    exact ((Text.toLower_eq_toLower_iff hnc.1).mpr hnc.2).symm
  · intro h
    refine ((List.forall₂_and_left _ _).mpr ⟨hname, h⟩).imp fun n c hnc => ?_
    exact (Text.toLower_eq_toLower_iff hnc.1).mp hnc.2.symm

theorem SpelledAs.ascii {cs : List Char} (h : SpelledAs cs m) : ∀ c ∈ cs, Text.IsAscii c := by
  have hname : ∀ n ∈ m.name.toList, n.isAlpha = true := fun n hn => by
    simp [Char.isAlpha, isUpper_of_mem_name hn]
  have hascii : List.Forall₂ (fun c _ => Text.IsAscii c ∧ True) cs m.name.toList := by
    refine List.Forall₂.flip (((List.forall₂_and_left _ _).mpr ⟨hname, h⟩).imp fun n c hnc => ?_)
    refine ⟨Text.isAscii_of_isAlpha ?_, trivial⟩
    rcases hnc with ⟨hn, rfl | rfl⟩
    · exact hn
    · rw [Char.isAlpha_toLower_eq_isAlpha, hn]
  exact ((List.forall₂_and_left _ _).mp hascii).1

theorem walkedAs_iff_spelledAs : WalkedAs text m ↔ SpelledAs text.toList m := by
  have hname : ∀ n ∈ m.name.toList, Text.IsAscii n := fun n hn => isAscii_of_mem_name hn
  rw [walkedAs_iff]
  constructor
  · intro h
    have hlower := congrArg String.toList h
    rw [Text.toList_lower_of_ascii fun c hc => ascii_of_lower h hc,
      Text.toList_lower_of_ascii hname] at hlower
    exact spelledAs_iff.mpr hlower
  · intro h
    rw [← String.toList_inj, Text.toList_lower_of_ascii h.ascii, Text.toList_lower_of_ascii hname]
    exact spelledAs_iff.mp h

/-- Walking a path item, resolving one operation and looking one up take the same texts for a
method, apart from those with a stray letter, which the walk passes over. -/
theorem readings_part_at_stray_letters (text : String) (m : Method) : Readings text m where
  lookedUp := lookedUpAs_iff
  walked := walkedAs_iff_acceptedAs
  accepted := acceptedAs_iff_walkedAs_respell
  letters := walkedAs_iff_spelledAs

/-- The long s is taken for an s where capitals are compared, and passed over by the walk. -/
theorem long_s_passed_over : AcceptedAs "po\u017ft" .post ∧ LookedUpAs "po\u017ft" .post ∧
    ¬ WalkedAs "po\u017ft" .post := by
  have haccepted : AcceptedAs "po\u017ft" .post := acceptedAs_iff.mpr (by decide +kernel)
  refine ⟨haccepted, lookedUpAs_iff.mpr haccepted, fun h => ?_⟩
  exact absurd (walkedAs_iff.mp h) (by decide +kernel)

end Method

end OpenApiIR
