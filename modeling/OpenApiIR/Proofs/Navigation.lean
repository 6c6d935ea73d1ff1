import Mathlib.Data.List.Forall2
import Mathlib.Data.Nat.Digits.Defs
import OpenApiIR.Failure
import OpenApiIR.Proofs.Form
import OpenApiIR.Proofs.PointerText

/-! Where pointers lead. A value is reached by moves, through the keys of maps and the indexes of
lists. Main statement: the pointer that spells moves out leads where the moves lead; a pointer leads
nowhere else than where moves lead that its segments name; and any other is refused at the first
segment that names no move. An index of more digits than the runtime reads names none, and is not
refused as a fault of the reference. -/

namespace OpenApiIR

namespace Pointer

/-- To the value under a key of a map, or to an item of a list. -/
inductive Move where
  | key (name : String)
  | item (index : Nat)
  deriving DecidableEq, Repr

inductive Move.Leads (g : Graph) : Move → Value → Value → Prop where
  | key {v w : Value} {es : Entries} {name : String} : g.entries? v = some es →
      es.value? (.str name) = some w → Leads g (.key name) v w
  | item {v w : Value} {items : List Value} {i : Nat} : g.items? v = some items →
      items[i]? = some w → Leads g (.item i) v w

/-- Where moves lead, one after the other. -/
inductive Route (g : Graph) : Value → List Move → Value → Prop where
  | nil (v : Value) : Route g v [] v
  | cons {u v w : Value} {m : Move} {moves : List Move} : m.Leads g u v → Route g v moves w →
      Route g u (m :: moves) w

/-- What an unescaped segment can stand for: any text names a key, and a decimal that is short
enough to be read an index too. -/
inductive Names : List Char → Move → Prop where
  | key (s : List Char) : Names s (.key (String.ofList s))
  | item {s : List Char} {i : Nat} : Decimal s i → s.length ≤ Limit.digits → Names s (.item i)

/-- A reference into the document whose segments, between slashes, name the moves. -/
def Spells (ref : String) (moves : List Move) : Prop :=
  ∃ rest, ref.toList = '#' :: '/' :: rest ∧
    List.Forall₂ Names ((rest.splitOn '/').map unescape) moves

def Move.segment : Move → List Char
  | .key name => escape name.toList
  | .item i => Nat.toDigits 10 i

/-- The reference that spells moves out: keys escaped, and indexes in decimal. -/
def reference (moves : List Move) : String :=
  String.ofList ('#' :: '/' :: ['/'].intercalate (moves.map Move.segment))

/-- A value in which a segment names no move, and what is said of it. -/
inductive Stuck (g : Graph) (ref : String) (v : Value) (s : List Char) : RefError → Prop where
  | missingKey {es : Entries} : g.entries? v = some es →
      es.value? (.str (String.ofList s)) = none →
        Stuck g ref v s (.missingKey ref (String.ofList s))
  | badIndex {items : List Value} : g.items? v = some items →
      (∀ i, Decimal s i → s.length ≤ Limit.digits ∧ items.length ≤ i) →
      Stuck g ref v s (.badIndex ref (String.ofList s))
  | overlong {items : List Value} {i : Nat} : g.items? v = some items → Decimal s i →
      Limit.digits < s.length → Stuck g ref v s (.limit (.read s.length))
  | leaf : g.entries? v = none → g.items? v = none → Stuck g ref v s (.leaf ref (g.kindName v))

/-- A reference that leads nowhere: it does not point into the document, or one of its segments
names no move where the segments before it lead. -/
inductive Refused (g : Graph) (root : Value) : Value → RefError → Prop where
  | external {ref : Value} {shown : String} :
      (∀ text rest, ref = .str text → text.toList ≠ '#' :: '/' :: rest) →
      g.shown ref = .ok shown → Refused g root ref (.external shown)
  | unshown {ref : Value} {l : Limit} : g.shown ref = .error l → Refused g root ref (.limit l)
  | stuck {ref : String} {rest s : List Char} {before after : List (List Char)} {moves : List Move}
      {v : Value} {e : RefError} : ref.toList = '#' :: '/' :: rest →
      rest.splitOn '/' = before ++ s :: after → List.Forall₂ Names (before.map unescape) moves →
      Route g root moves v → Stuck g ref v (unescape s) e → Refused g root (.str ref) e

variable {g : Graph} {root v w : Value} {ref : String} {s : List Char} {moves : List Move}
  {e : RefError}

theorem segments?_eq_some_iff {segments : List (List Char)} :
    segments? ref = some segments ↔
      ∃ rest, ref.toList = '#' :: '/' :: rest ∧ segments = rest.splitOn '/' := by
  unfold segments?
  split
  · rename_i rest h
    simp [h, Text.splitOn_eq, eq_comm]
  · rename_i hne
    constructor
    · intro h
      cases h
    · rintro ⟨rest, h, _⟩
      exact absurd h (hne rest)

theorem segments?_eq_none_iff :
    segments? ref = none ↔ ∀ rest, ref.toList ≠ '#' :: '/' :: rest := by
  constructor
  · intro h rest hrest
    rw [segments?_eq_some_iff.mpr ⟨rest, hrest, rfl⟩] at h
    cases h
  · intro h
    cases hs : segments? ref with
    | none => rfl
    | some segments =>
      obtain ⟨rest, hrest, _⟩ := segments?_eq_some_iff.mp hs
      exact absurd hrest (h rest)

theorem Route.snoc {u : Value} {m : Move} (h : Route g v moves w) (hm : m.Leads g w u) :
    Route g v (moves ++ [m]) u := by
  induction h with
  | nil v => exact .cons hm (.nil u)
  | cons hl _ ih => exact .cons hl (ih hm)

/-! One segment. -/

theorem ofDigits?_eq_none_iff {n : Nat} : Limit.ofDigits? n = none ↔ n ≤ Limit.digits := by
  simp [Limit.ofDigits?]

theorem itemAt_eq_ok_iff {items : List Value} :
    itemAt items ref s = .ok w ↔
      ∃ i, Decimal s i ∧ s.length ≤ Limit.digits ∧ items[i]? = some w := by
  constructor
  · intro h
    obtain ⟨i, hi, hn, hitem⟩ := itemAt_eq_ok h
    exact ⟨i, index?_eq_some_iff.mp hi, ofDigits?_eq_none_iff.mp hn, hitem⟩
  · rintro ⟨i, hd, hn, hitem⟩
    simp only [itemAt, index?_eq_some_iff.mpr hd, ofDigits?_eq_none_iff.mpr hn, hitem]

theorem step_eq_ok_iff : step g ref v s = .ok w ↔ ∃ m, Names s m ∧ m.Leads g v w := by
  constructor
  · intro h
    unfold step at h
    split at h
    · rename_i es hv
      split at h
      · rename_i u hu
        obtain rfl := Except.ok.inj h
        exact ⟨_, .key s, .key (Graph.entries?_eq_some_iff.mpr hv) hu⟩
      · cases h
    · rename_i items hv
      obtain ⟨i, hd, hn, hitem⟩ := itemAt_eq_ok_iff.mp h
      exact ⟨_, .item hd hn, .item (Graph.items?_eq_some_iff.mpr hv) hitem⟩
    · cases h
  · rintro ⟨m, hm, hl⟩
    cases hl with
    | key he hk =>
      cases hm with
      | key => simp only [step, Graph.entries?_eq_some_iff.mp he, hk]
    | item hi hitem =>
      cases hm with
      | item hd hn =>
        simp only [step, Graph.items?_eq_some_iff.mp hi]
        exact itemAt_eq_ok_iff.mpr ⟨_, hd, hn, hitem⟩

theorem Decimal.unique {i j : Nat} (h : Decimal s i) (h' : Decimal s j) : i = j :=
  Option.some.inj ((index?_eq_some_iff.mpr h).symm.trans (index?_eq_some_iff.mpr h'))

theorem stuck_of_itemAt {items : List Value} (hi : g.items? v = some items)
    (h : itemAt items ref s = .error e) : Stuck g ref v s e := by
  unfold itemAt at h
  split at h
  · rename_i hnone
    obtain rfl := Except.error.inj h
    refine .badIndex hi fun i hd => ?_
    rw [index?_eq_some_iff.mpr hd] at hnone
    cases hnone
  · rename_i i hindex
    have hd := index?_eq_some_iff.mp hindex
    unfold Limit.ofDigits? at h
    by_cases hn : Limit.digits < s.length
    · rw [if_pos hn] at h
      obtain rfl := Except.error.inj h
      exact .overlong hi hd hn
    · rw [if_neg hn] at h
      cases hitem : items[i]? with
      | some u => simp [hitem] at h
      | none =>
        simp only [hitem] at h
        obtain rfl := Except.error.inj h
        refine .badIndex hi fun j hj => ⟨Nat.le_of_not_lt hn, ?_⟩
        rw [hj.unique hd]
        exact List.getElem?_eq_none_iff.mp hitem

theorem step_eq_error_iff : step g ref v s = .error e ↔ Stuck g ref v s e := by
  constructor
  · intro h
    unfold step at h
    split at h
    · rename_i es hv
      split at h
      · cases h
      · rename_i hk
        obtain rfl := Except.error.inj h
        exact .missingKey (Graph.entries?_eq_some_iff.mpr hv) hk
    · rename_i items hv
      exact stuck_of_itemAt (Graph.items?_eq_some_iff.mpr hv) h
    · rename_i hmap hseq
      obtain rfl := Except.error.inj h
      refine .leaf (Option.eq_none_iff_forall_ne_some.mpr fun es he => ?_)
        (Option.eq_none_iff_forall_ne_some.mpr fun items hi => ?_)
      · exact hmap es (Graph.entries?_eq_some_iff.mp he)
      · exact hseq items (Graph.items?_eq_some_iff.mp hi)
  · intro h
    cases h with
    | missingKey he hk => simp only [step, Graph.entries?_eq_some_iff.mp he, hk]
    | badIndex hi hnone =>
      simp only [step, Graph.items?_eq_some_iff.mp hi, itemAt]
      cases hindex : index? s with
      | none => rfl
      | some i =>
        obtain ⟨hn, hlong⟩ := hnone i (index?_eq_some_iff.mp hindex)
        simp only [ofDigits?_eq_none_iff.mpr hn, List.getElem?_eq_none_iff.mpr hlong]
    | overlong hi hd hn =>
      simp only [step, Graph.items?_eq_some_iff.mp hi, itemAt, index?_eq_some_iff.mpr hd,
        Limit.ofDigits?, if_pos hn]
    | leaf he hi =>
      unfold step
      split
      · rename_i es hv
        rw [Graph.entries?_eq_some_iff.mpr hv] at he
        cases he
      · rename_i items hv
        rw [Graph.items?_eq_some_iff.mpr hv] at hi
        cases hi
      · rfl

/-! Segments one after the other. -/

theorem steps_eq_ok_iff {segments : List (List Char)} :
    segments.foldlM (fun v s => step g ref v (unescape s)) v = .ok w ↔
      ∃ moves, List.Forall₂ Names (segments.map unescape) moves ∧ Route g v moves w := by
  induction segments generalizing v with
  | nil =>
    constructor
    · intro h
      obtain rfl := Except.ok.inj h
      exact ⟨[], .nil, .nil v⟩
    · rintro ⟨_, hnames, hroute⟩
      cases hnames
      cases hroute
      rfl
  | cons s rest ih =>
    rw [List.foldlM_cons, List.map_cons]
    constructor
    · intro h
      cases hs : step g ref v (unescape s) with
      | error e =>
        rw [hs] at h
        cases h
      | ok u =>
        rw [hs] at h
        obtain ⟨m, hm, hl⟩ := step_eq_ok_iff.mp hs
        obtain ⟨moves, hnames, hroute⟩ := ih.mp h
        exact ⟨m :: moves, .cons hm hnames, .cons hl hroute⟩
    · rintro ⟨_, hnames, hroute⟩
      cases hnames with
      | cons hm hnames =>
        cases hroute with
        | cons hl hroute =>
          rw [step_eq_ok_iff.mpr ⟨_, hm, hl⟩]
          exact ih.mpr ⟨_, hnames, hroute⟩

theorem steps_eq_error_iff {segments : List (List Char)} :
    segments.foldlM (fun v s => step g ref v (unescape s)) v = .error e ↔
      ∃ before s after moves u, segments = before ++ s :: after ∧
        List.Forall₂ Names (before.map unescape) moves ∧ Route g v moves u ∧
        Stuck g ref u (unescape s) e := by
  constructor
  · intro h
    induction segments generalizing v with
    | nil => cases h
    | cons s rest ih =>
      rw [List.foldlM_cons] at h
      cases hs : step g ref v (unescape s) with
      | error e' =>
        rw [hs] at h
        obtain rfl := Except.error.inj h
        exact ⟨[], s, rest, [], v, rfl, .nil, .nil v, step_eq_error_iff.mp hs⟩
      | ok u =>
        rw [hs] at h
        obtain ⟨m, hm, hl⟩ := step_eq_ok_iff.mp hs
        obtain ⟨before, s', after, moves, u', rfl, hnames, hroute, hstuck⟩ := ih h
        exact ⟨s :: before, s', after, m :: moves, u', rfl, .cons hm hnames,
          .cons hl hroute, hstuck⟩
  · rintro ⟨before, s, after, moves, u, rfl, hnames, hroute, hstuck⟩
    rw [List.foldlM_append, steps_eq_ok_iff.mpr ⟨moves, hnames, hroute⟩]
    change (s :: after).foldlM (fun v s => step g ref v (unescape s)) u = .error e
    rw [List.foldlM_cons, step_eq_error_iff.mpr hstuck]
    rfl

/-! Whole references. -/

theorem resolve_eq_ok_iff : resolve g root ref = .ok v ↔
    ∃ moves, Spells ref moves ∧ Route g root moves v := by
  unfold resolve
  cases hs : segments? ref with
  | none =>
    constructor
    · intro h
      cases h
    · rintro ⟨_, ⟨rest, hrest, _⟩, _⟩
      exact absurd hrest (segments?_eq_none_iff.mp hs rest)
  | some segments =>
    obtain ⟨rest, hrest, rfl⟩ := segments?_eq_some_iff.mp hs
    refine steps_eq_ok_iff.trans ⟨?_, ?_⟩
    · rintro ⟨moves, hnames, hroute⟩
      exact ⟨moves, ⟨rest, hrest, hnames⟩, hroute⟩
    · rintro ⟨moves, ⟨rest', hrest', hnames⟩, hroute⟩
      obtain rfl : rest' = rest := by simpa [hrest] using hrest'.symm
      exact ⟨moves, hnames, hroute⟩

theorem resolve_eq_error_iff : resolve g root ref = .error e ↔ Refused g root (.str ref) e := by
  unfold resolve
  cases hs : segments? ref with
  | none =>
    have hnot := segments?_eq_none_iff.mp hs
    constructor
    · intro h
      obtain rfl := Except.error.inj h
      refine .external (fun text rest ht => ?_) rfl
      obtain rfl := Scalar.str.inj (Value.scalar.inj ht)
      exact hnot rest
    · intro h
      cases h with
      | external _ hshown =>
        obtain rfl := Except.ok.inj hshown
        rfl
      | unshown hshown => cases hshown
      | stuck hrest _ _ _ _ => exact absurd hrest (hnot _)
  | some segments =>
    obtain ⟨rest, hrest, rfl⟩ := segments?_eq_some_iff.mp hs
    refine steps_eq_error_iff.trans ⟨?_, ?_⟩
    · rintro ⟨before, s, after, moves, u, hsplit, hnames, hroute, hstuck⟩
      exact .stuck hrest hsplit hnames hroute hstuck
    · intro h
      cases h with
      | external hnot _ => exact absurd hrest (hnot ref rest rfl)
      | unshown hshown => cases hshown
      | stuck hrest' hsplit hnames hroute hstuck =>
        rw [hrest] at hrest'
        obtain ⟨_, hcons⟩ := List.cons.inj hrest'
        obtain ⟨_, rfl⟩ := List.cons.inj hcons
        exact ⟨_, _, _, _, _, hsplit, hnames, hroute, hstuck⟩

theorem resolveAny_eq_ok_iff {ref : Value} : resolveAny g root ref = .ok v ↔
    ∃ text moves, ref = .str text ∧ Spells text moves ∧ Route g root moves v := by
  constructor
  · intro h
    unfold resolveAny at h
    split at h
    · rename_i text
      obtain ⟨moves, hspells, hroute⟩ := resolve_eq_ok_iff.mp h
      exact ⟨text, moves, rfl, hspells, hroute⟩
    · split at h <;> cases h
  · rintro ⟨text, moves, rfl, hspells, hroute⟩
    exact resolve_eq_ok_iff.mpr ⟨moves, hspells, hroute⟩

theorem resolveAny_eq_error_iff {ref : Value} :
    resolveAny g root ref = .error e ↔ Refused g root ref e := by
  by_cases htext : ∃ text, ref = .str text
  · obtain ⟨text, rfl⟩ := htext
    exact resolve_eq_error_iff
  · have hnot : ∀ text, ref ≠ .str text := fun text h => htext ⟨text, h⟩
    unfold resolveAny
    split
    · exact absurd rfl (hnot _)
    · constructor
      · intro h
        split at h
        · rename_i hshown
          obtain rfl := Except.error.inj h
          exact .external (fun text _ h => absurd h (hnot text)) hshown
        · rename_i hshown
          obtain rfl := Except.error.inj h
          exact .unshown hshown
      · intro h
        cases h with
        | external _ hshown => rw [hshown]
        | unshown hshown => rw [hshown]
        | stuck _ _ _ _ _ => exact absurd rfl (hnot _)

/-! The reference that spells moves out. -/

theorem slash_not_mem_segment (m : Move) : '/' ∉ m.segment := by
  cases m with
  | key name => exact slash_not_mem_escape name.toList
  | item i =>
    intro h
    exact absurd (isDigit_of_mem_toDigits h) (by decide)

/-- An index that the runtime reads in decimal; no list that fits into memory has another. -/
def Move.Readable : Move → Prop
  | .key _ => True
  | .item i => i < 10 ^ Limit.digits

theorem names_segment {m : Move} (h : m.Readable) : Names (unescape m.segment) m := by
  cases m with
  | key name =>
    have hnames := Names.key name.toList
    rw [String.ofList_toList] at hnames
    rwa [Move.segment, unescape_escape]
  | item i =>
    have hplain : '~' ∉ Nat.toDigits 10 i := fun h =>
      absurd (isDigit_of_mem_toDigits h) (by decide)
    rw [Move.segment, unescape_of_not_mem hplain]
    exact .item (decimal_toDigits i) (Nat.toDigits_length 10 i Limit.digits (by decide) h)

theorem spells_reference (h : moves ≠ []) (hread : ∀ m ∈ moves, m.Readable) :
    Spells (reference moves) moves := by
  refine ⟨_, String.toList_ofList, ?_⟩
  have hslash : ∀ s ∈ moves.map Move.segment, '/' ∉ s := by
    intro s hs
    obtain ⟨m, _, rfl⟩ := List.mem_map.mp hs
    exact slash_not_mem_segment m
  rw [List.splitOn_intercalate '/' hslash (by simpa using h), List.map_map,
    List.forall₂_map_left_iff]
  exact List.forall₂_same.mpr fun m hm => names_segment (hread m hm)

/-- The pointer that spells moves out leads where they lead. Whatever a pointer leads to is reached
by moves that its segments name, and all other references are refused, each for the first segment
that is stuck. -/
theorem resolve_exact (g : Graph) (root : Value) :
    (∀ moves v, moves ≠ [] → (∀ m ∈ moves, m.Readable) → Route g root moves v →
      resolve g root (reference moves) = .ok v) ∧
    (∀ ref v, resolveAny g root ref = .ok v ↔
      ∃ text moves, ref = .str text ∧ Spells text moves ∧ Route g root moves v) ∧
    ∀ ref e, resolveAny g root ref = .error e ↔ Refused g root ref e := by
  refine ⟨fun moves v hne hread hroute => ?_, fun ref v => resolveAny_eq_ok_iff,
    fun ref e => resolveAny_eq_error_iff⟩
  exact resolve_eq_ok_iff.mpr ⟨moves, spells_reference hne hread, hroute⟩

/-- A list below keys that are empty, hold a slash, and look like an escape. -/
def escapedRoot : Value := .map [(.str "", .map [(.str "a/b", .map [(.str "~01", .seq [
  .str "first", .map [(.str "0", .str "second")]])])])]

def escapedMoves : List Move := [.key "", .key "a/b", .key "~01", .item 1, .key "0"]

theorem escapedMoves_readable : ∀ m ∈ escapedMoves, m.Readable := by
  intro m hm
  simp only [escapedMoves, List.mem_cons, List.not_mem_nil, or_false] at hm
  rcases hm with rfl | rfl | rfl | rfl | rfl
  all_goals first
    | trivial
    | exact Nat.one_lt_pow (by decide) (by decide)

/-- The pointer to the innermost value, and one that is stuck at an index with a leading zero. -/
theorem escaped_keys_resolved :
    (Route .empty escapedRoot escapedMoves (.str "second") ∧
      reference escapedMoves = "#//a~1b/~001/1/0" ∧
      resolve .empty escapedRoot "#//a~1b/~001/1/0" = .ok (.str "second")) ∧
    Refused .empty escapedRoot (.str "#//a~1b/~001/01") (.badIndex "#//a~1b/~001/01" "01") := by
  obtain ⟨hroute, _, hrefused⟩ := resolve_exact .empty escapedRoot
  have hspelled : reference escapedMoves = "#//a~1b/~001/1/0" := by decide +kernel
  have hleads : Route .empty escapedRoot escapedMoves (.str "second") :=
    .cons (.key rfl rfl) (.cons (.key rfl rfl) (.cons (.key rfl rfl)
      (.cons (.item rfl rfl) (.cons (.key rfl rfl) (.nil _)))))
  have hfound := hroute escapedMoves (.str "second") (by decide) escapedMoves_readable hleads
  rw [hspelled] at hfound
  exact ⟨⟨hleads, hspelled, hfound⟩, (hrefused _ _).mp (by decide +kernel)⟩

def nines : List Char := List.replicate (Limit.digits + 1) '9'

def ninesReference : String := String.ofList ('#' :: '/' :: 'x' :: '/' :: nines)

def listRoot : Value := .map [(.str "x", .seq [])]

theorem decimal_nines : Decimal nines (Text.decimalNat nines) := by
  refine .digits (by decide) fun c hc => ?_
  rw [List.eq_of_mem_replicate (show c ∈ nines from hc)]
  decide

/-- An index that is too long to be read leads nowhere in any list. -/
theorem resolve_nines {g : Graph} {root list : Value} {es : Entries} {items : List Value}
    (hroot : g.entries? root = some es) (hx : es.value? (.str "x") = some list)
    (hlist : g.items? list = some items) :
    resolve g root ninesReference = .error (.limit (.read (Limit.digits + 1))) := by
  have hlength : nines.length = Limit.digits + 1 := List.length_replicate
  have hslash : '/' ∉ nines := fun h => absurd (List.eq_of_mem_replicate h) (by decide)
  have htilde : '~' ∉ nines := fun h => absurd (List.eq_of_mem_replicate h) (by decide)
  have hstuck : Stuck g ninesReference list (unescape nines)
      (.limit (.read (Limit.digits + 1))) := by
    rw [unescape_of_not_mem htilde, ← hlength]
    exact .overlong hlist decimal_nines (by rw [hlength]; exact Nat.lt_succ_self _)
  have hrest : ninesReference.toList = '#' :: '/' :: 'x' :: '/' :: nines := String.toList_ofList
  have hsplit : (['/'].intercalate [['x'], nines]).splitOn '/' = [['x']] ++ nines :: [] :=
    List.splitOn_intercalate '/' (by simp [hslash]) (by simp)
  rw [List.intercalate_cons_cons, List.intercalate_singleton] at hsplit
  refine resolve_eq_error_iff.mpr ?_
  exact .stuck hrest hsplit (.cons (.key ['x']) .nil) (.cons (.key hroot hx) (.nil _)) hstuck

/-- A dangling pointer is not refused as such when its index is too long to be read. -/
theorem long_index_breaks : resolve .empty listRoot ninesReference =
      .error (.limit (.read (Limit.digits + 1))) ∧
    RefError.isResolution (.limit (.read (Limit.digits + 1))) = false :=
  ⟨resolve_nines rfl rfl rfl, rfl⟩

end Pointer

end OpenApiIR
