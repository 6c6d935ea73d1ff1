import Mathlib.Data.List.Nodup
import OpenApiIR.Proofs.Assembly

/-! An endpoint is known by its method and its path. The keys of a path item are different, yet two
of them may spell one method, in small and in capital letters. Endpoints are told apart exactly
where no two such keys both give one. In a look-up the keys of other path items do not count: it
brings back the first endpoint of the method that the keys of the path item give. -/

namespace OpenApiIR

/-- Looking for what an element is known by finds the element, where no other is known by it. -/
theorem find?_eq_self {α β : Type} [DecidableEq β] {f : α → β} {xs : List α} {x : α}
    (h : (xs.map f).Nodup) (hx : x ∈ xs) : xs.find? (fun y => decide (f y = f x)) = some x := by
  induction xs with
  | nil => cases hx
  | cons y rest ih =>
    rw [List.map_cons, List.nodup_cons] at h
    by_cases hy : f y = f x
    · have hyx : x = y := by
        rcases List.mem_cons.mp hx with hx | hx
        · exact hx
        · exact absurd (List.mem_map.mpr ⟨x, hx, hy.symm⟩) h.1
      rw [List.find?_cons_of_pos (by simpa using hy), hyx]
    · have hrest : x ∈ rest := by
        rcases List.mem_cons.mp hx with hx | hx
        · exact absurd (congrArg f hx.symm) hy
        · exact hx
      rw [List.find?_cons_of_neg (by simpa using hy)]
      exact ih h.2 hrest

namespace Entries

/-- A map with strings for keys, no two of them equal. -/
structure StringKeyed (es : Entries) : Prop where
  distinct : es.Distinct
  strings : ∀ e ∈ es, ∃ text, e.1 = .str text

theorem StringKeyed.of_names {es : Entries} (names : List String)
    (h : es.keys = names.map Scalar.str)
    (hnames : names.Nodup) : es.StringKeyed := by
  constructor
  · unfold Distinct
    rw [h, List.pairwise_map]
    refine hnames.imp fun {a b} hne => ?_
    rw [Scalar.sameKey_str, beq_eq_false_iff_ne]
    exact hne
  · intro e he
    have hkey : e.1 ∈ names.map Scalar.str := h ▸ List.mem_map_of_mem he
    obtain ⟨name, -, hname⟩ := List.mem_map.mp hkey
    exact ⟨name, hname.symm⟩

def texts (es : Entries) : List String := es.map (·.1.text)

theorem StringKeyed.nodup_texts {es : Entries} (h : es.StringKeyed) : es.texts.Nodup := by
  have hkeys := List.pairwise_map.mp h.distinct
  refine List.pairwise_map.mpr (hkeys.imp_of_mem fun {e e'} he he' hne => ?_)
  obtain ⟨s, hs⟩ := h.strings e he
  obtain ⟨t, ht⟩ := h.strings e' he'
  rw [hs, ht, Scalar.sameKey_str, beq_eq_false_iff_ne] at hne
  rw [hs, ht]
  exact hne

end Entries

theorem find?_flatMap_of_nodup {α β γ : Type} {key : α → γ} {f : α → List β} {p : β → Bool}
    {xs : List α} {x : α} (h : (xs.map key).Nodup) (hx : x ∈ xs)
    (hp : ∀ y ∈ xs, ∀ b ∈ f y, p b = true → key y = key x) :
    (xs.flatMap f).find? p = (f x).find? p := by
  obtain ⟨before, after, rfl⟩ := List.append_of_mem hx
  rw [List.map_append, List.map_cons, List.nodup_append] at h
  obtain ⟨_, hafter, hapart⟩ := h
  have none_in : ∀ ys : List α, (∀ y ∈ ys, y ∈ before ++ x :: after ∧ key y ≠ key x) →
      (ys.flatMap f).find? p = none := by
    intro ys hys
    refine List.find?_eq_none.mpr fun b hb hpb => ?_
    obtain ⟨y, hy, hb⟩ := List.mem_flatMap.mp hb
    exact (hys y hy).2 (hp y (hys y hy).1 b hb hpb)
  have hbefore := none_in before fun y hy => ⟨List.mem_append_left _ hy,
    hapart _ (List.mem_map_of_mem hy) _ List.mem_cons_self⟩
  have hrest := none_in after fun y hy => ⟨List.mem_append_right _ (List.mem_cons_of_mem _ hy),
    fun he => (List.nodup_cons.mp hafter).1 (he ▸ List.mem_map_of_mem hy)⟩
  rw [List.flatMap_append, List.flatMap_cons, List.find?_append, List.find?_append, hbefore, hrest]
  simp

namespace Endpoint

def identity (e : Endpoint) : Method × String := (e.method, e.path)

def given (sc : Scope) (mediaType path : String) (item : Entries) (o : Scalar × Value) :
    List Endpoint :=
  (itemEntry sc mediaType path (item.field "parameters") o).value

/-- Of two keys of a path item that spell one method at most one gives an endpoint. -/
def GivenOnce (sc : Scope) (mediaType path : String) (item : Entries) : Prop :=
  item.Pairwise fun o o' => ∀ m, Spells o.1 m → Spells o'.1 m →
    given sc mediaType path item o = [] ∨ given sc mediaType path item o' = []

variable {sc : Scope} {mediaType path : String} {item : Entries} {o o' : Scalar × Value}
  {m n : Method} {ep : Endpoint}

theorem Spells.unique {key : Scalar} (h : Spells key m) (h' : Spells key n) : m = n := by
  obtain ⟨text, hkey, hm⟩ := h
  obtain ⟨text', hkey', hn⟩ := h'
  obtain rfl := Scalar.str.inj (hkey.symm.trans hkey')
  exact Method.key_injective (hm.symm.trans hn)

theorem spells_of_given (h : ep ∈ given sc mediaType path item o) :
    Spells o.1 ep.method ∧ ep.path = path ∧ given sc mediaType path item o = [ep] := by
  obtain ⟨m, part, r, hs, hpart, hb, _, _⟩ := mem_itemEntry h
  have hacc := itemEntry_accounted sc mediaType path (item.field "parameters") o
  obtain ⟨ep', hv, hm, hp, _⟩ := hacc.operation m part hs hpart hb
  have hgiven : given sc mediaType path item o = [ep'] := hv
  rw [hgiven] at h
  obtain rfl := List.mem_singleton.mp h
  exact ⟨hm ▸ hs, hp, hgiven⟩

theorem disjoint_given_iff :
    List.Disjoint ((given sc mediaType path item o).map identity)
        ((given sc mediaType path item o').map identity) ↔
      ∀ m, Spells o.1 m → Spells o'.1 m →
        given sc mediaType path item o = [] ∨ given sc mediaType path item o' = [] := by
  constructor
  · intro h m hs hs'
    cases hg : given sc mediaType path item o with
    | nil => exact Or.inl rfl
    | cons ep _ =>
      cases hg' : given sc mediaType path item o' with
      | nil => exact Or.inr rfl
      | cons ep' _ =>
        have hep : ep ∈ given sc mediaType path item o := hg ▸ List.mem_cons_self
        have hep' : ep' ∈ given sc mediaType path item o' := hg' ▸ List.mem_cons_self
        obtain ⟨hm, hpath, _⟩ := spells_of_given hep
        obtain ⟨hm', hpath', _⟩ := spells_of_given hep'
        have hsame : ep.identity = ep'.identity :=
          Prod.ext ((hm.unique hs).trans (hs'.unique hm')) (hpath.trans hpath'.symm)
        exact absurd (hsame ▸ List.mem_map_of_mem hep') (h (List.mem_map_of_mem hep))
  · intro h k hk hk'
    obtain ⟨ep, hep, rfl⟩ := List.mem_map.mp hk
    obtain ⟨ep', hep', hsame⟩ := List.mem_map.mp hk'
    have hs' := (spells_of_given hep').1
    have hmethod : ep'.method = ep.method := congrArg Prod.fst hsame
    rw [hmethod] at hs'
    rcases h ep.method (spells_of_given hep).1 hs' with hnone | hnone
    · rw [hnone] at hep
      cases hep
    · rw [hnone] at hep'
      cases hep'

theorem nodup_given (o : Scalar × Value) :
    ((given sc mediaType path item o).map identity).Nodup := by
  cases hg : given sc mediaType path item o with
  | nil => exact List.nodup_nil
  | cons ep rest =>
    obtain ⟨_, _, hone⟩ := spells_of_given (hg ▸ List.mem_cons_self)
    rw [← hg, hone]
    exact List.nodup_singleton _

theorem nodup_items : ((item.flatMap (given sc mediaType path item)).map identity).Nodup ↔
    GivenOnce sc mediaType path item := by
  rw [List.map_flatMap, List.nodup_flatMap]
  constructor
  · intro h
    exact h.2.imp fun hd => disjoint_given_iff.mp hd
  · intro h
    exact ⟨fun o _ => nodup_given o, h.imp fun hs => disjoint_given_iff.mpr hs⟩

theorem value_pathEntry {e : Scalar × Value} {v : Value} (hf : sc.follow e.2 = .ok v)
    (hv : sc.graph.entries? v = some item) :
    (pathEntry sc mediaType e).value = item.flatMap (given sc mediaType e.1.text item) :=
  ((pathEntry_accounted sc mediaType e).item v item hf hv).1

theorem path_of_mem {e : Scalar × Value} (h : ep ∈ (pathEntry sc mediaType e).value) :
    ep.path = e.1.text := by
  obtain ⟨_, _, _, _, _, _, hitem⟩ := mem_pathEntry h
  exact (spells_of_given hitem).2.1

theorem nodup_identities_path (e : Scalar × Value) :
    ((pathEntry sc mediaType e).value.map identity).Nodup ↔
      ∀ v item, sc.follow e.2 = .ok v → sc.graph.entries? v = some item →
        GivenOnce sc mediaType e.1.text item := by
  by_cases hitem : ∃ v item, sc.follow e.2 = .ok v ∧ sc.graph.entries? v = some item
  · obtain ⟨v, item, hf, he⟩ := hitem
    rw [value_pathEntry hf he, nodup_items]
    constructor
    · intro h v' item' hf' he'
      obtain rfl := Except.ok.inj (hf.symm.trans hf')
      obtain rfl := Option.some.inj (he.symm.trans he')
      exact h
    · intro h
      exact h v item hf he
  · have hnone : ∀ v item, sc.follow e.2 = .ok v → sc.graph.entries? v ≠ some item :=
      fun v item hf he => hitem ⟨v, item, hf, he⟩
    rw [value_no_item hnone]
    exact ⟨fun _ v item hf he => absurd he (hnone v item hf), fun _ => List.nodup_nil⟩

end Endpoint

theorem Method.ofName?_name (m : Method) : ofName? m.name = some m := by
  cases m <;> decide +kernel

namespace IR

/-- An endpoint that a key of a path item gives, and those that earlier keys of the item give. -/
inductive Given (d : Document) (mediaType : String) (es : Entries) : List Endpoint → Endpoint → Prop
    where
  | intro {e o : Scalar × Value} {v : Value} {item before after : Entries} {ep : Endpoint} :
      e ∈ pathEntries d.graph es → d.scope.follow e.2 = .ok v → d.graph.entries? v = some item →
      item = before ++ o :: after → ep ∈ Endpoint.given d.scope mediaType e.1.text item o →
      Given d mediaType es (before.flatMap (Endpoint.given d.scope mediaType e.1.text item)) ep

variable {d : Document} {mediaType : String} {es : Entries} {ir : IR} {earlier : List Endpoint}
  {ep : Endpoint}

theorem given_of_mem (hep : ep ∈ (resolveEntries d mediaType es).1.endpoints) :
    ∃ earlier, Given d mediaType es earlier ep := by
  rw [endpoints_resolveEntries] at hep
  obtain ⟨e, he, hep⟩ := List.mem_flatMap.mp hep
  obtain ⟨v, item, o, hf, hv, ho, hep⟩ := Endpoint.mem_pathEntry hep
  obtain ⟨before, after, hsplit⟩ := List.append_of_mem ho
  exact ⟨_, .intro he hf hv hsplit hep⟩

/-- A look-up passes by the other paths, and finds the first endpoint of the method in the item. -/
theorem endpointAt?_given (hpaths : (pathEntries d.graph es).StringKeyed)
    (h : Given d mediaType es earlier ep) :
    (resolveEntries d mediaType es).1.endpointAt? ep.method ep.path =
      some ((earlier.find? (·.method = ep.method)).getD ep) := by
  obtain ⟨he, hf, hv, hsplit, hgiven⟩ := h
  rename_i e o v item before after
  obtain ⟨_, hpath, hone⟩ := Endpoint.spells_of_given hgiven
  have hother : ∀ y ∈ pathEntries d.graph es,
      ∀ ep' ∈ (Endpoint.pathEntry d.scope mediaType y).value,
        decide (ep'.method = ep.method ∧ ep'.path = ep.path) = true → y.1.text = e.1.text := by
    intro y _ ep' hep' hp
    rw [← Endpoint.path_of_mem hep', (of_decide_eq_true hp).2, hpath]
  -- All endpoints of the item have the path, so among them the method alone decides.
  have hmethod : ∀ ep' ∈ before.flatMap (Endpoint.given d.scope mediaType e.1.text item),
      decide (ep'.method = ep.method ∧ ep'.path = ep.path) = decide (ep'.method = ep.method) := by
    intro ep' hep'
    obtain ⟨o', _, hep'⟩ := List.mem_flatMap.mp hep'
    have hpath' := (Endpoint.spells_of_given hep').2.1
    simp [hpath, hpath']
  rw [endpointAt?, endpoints_resolveEntries, find?_flatMap_of_nodup hpaths.nodup_texts he hother,
    Endpoint.value_pathEntry hf hv]
  generalize Endpoint.given d.scope mediaType e.1.text item = given at hone hmethod ⊢
  rw [hsplit, List.flatMap_append, List.flatMap_cons, hone, List.find?_append,
    List.find?_congr hmethod, List.singleton_append, List.find?_cons_of_pos (by simp)]
  cases (before.flatMap given).find? _ <;> rfl

/-- In a document with strings for paths, endpoints are told apart by method and path exactly where
of two keys of a path item that spell one method at most one gives an endpoint. Each endpoint is
given by a key, and looking it up brings it back unless an earlier key of its own item gives one of
its method; then it brings back the first of these. -/
theorem endpoints_told_apart_iff (h : resolve d mediaType = .ok ir)
    (hroot : d.graph.entries? d.root = some es) (hpaths : (pathEntries d.graph es).StringKeyed) :
    ((ir.endpoints.map Endpoint.identity).Nodup ↔
      ∀ e ∈ pathEntries d.graph es, ∀ v item, d.scope.follow e.2 = .ok v →
        d.graph.entries? v = some item → Endpoint.GivenOnce d.scope mediaType e.1.text item) ∧
    (∀ ep ∈ ir.endpoints, ∃ earlier, Given d mediaType es earlier ep) ∧
    ∀ earlier ep, Given d mediaType es earlier ep → ir.endpoint? ep.method.name ep.path =
      .ok (some ((earlier.find? (·.method = ep.method)).getD ep)) := by
  obtain rfl := eq_of_resolve h hroot
  refine ⟨?_, fun ep hep => given_of_mem hep, fun earlier ep hg => ?_⟩
  · rw [endpoints_resolveEntries, List.map_flatMap, List.nodup_flatMap]
    have hapart := (List.pairwise_map.mp hpaths.nodup_texts).imp fun {e e'} hne =>
      show Function.onFun List.Disjoint
        (fun e => (Endpoint.pathEntry d.scope mediaType e).value.map Endpoint.identity) e e' by
      intro k hk hk'
      obtain ⟨ep, hep, rfl⟩ := List.mem_map.mp hk
      obtain ⟨ep', hep', hsame⟩ := List.mem_map.mp hk'
      have hpath : ep'.path = ep.path := congrArg Prod.snd hsame
      rw [Endpoint.path_of_mem hep, Endpoint.path_of_mem hep'] at hpath
      exact hne hpath.symm
    constructor
    · intro h e he
      exact (Endpoint.nodup_identities_path e).mp (h.1 e he)
    · intro h
      exact ⟨fun e he => (Endpoint.nodup_identities_path e).mpr (h e he), hapart⟩
  · simp only [endpoint?, Method.ofName?_name, endpointAt?_given hpaths hg]

def itemRef : Value := .map [(.str "$ref", .str "#/x-item")]

def sharedPaths : Entries := [(.str "/a", itemRef), (.str "/b", itemRef)]

def sharedItem : Entries := [
  (.str "get", .map []), (.str "Post", .map []), (.str "GET", .map [(.str "summary", .str "x")])]

def sharedEntries : Entries := [(.str "x-item", .map sharedItem), (.str "paths", .map sharedPaths)]

def sharedItemDocument : Document := .ofTree (.map sharedEntries)

def bareEndpoint (m : Method) (path summary : String) : Endpoint :=
  ⟨path, m, none, summary, "", [], [], none, [], false⟩

/-- A method under two keys of an item takes nothing away from the other methods, nor from other
paths. -/
theorem shared_item_told_apart : ∃ ir, resolve sharedItemDocument "application/json" = .ok ir ∧
    ir.endpoints = [bareEndpoint .get "/a" "", bareEndpoint .post "/a" "",
      bareEndpoint .get "/a" "x",
      bareEndpoint .get "/b" "", bareEndpoint .post "/b" "", bareEndpoint .get "/b" "x"] ∧
    ir.endpoint? "POST" "/b" = .ok (some (bareEndpoint .post "/b" "")) ∧
    ir.endpoint? "GET" "/b" = .ok (some (bareEndpoint .get "/b" "")) := by
  have hkeys : sharedPaths.StringKeyed := .of_names ["/a", "/b"] rfl (by decide)
  have hpath : (.str "/b", itemRef) ∈ sharedPaths :=
    List.mem_cons_of_mem _ List.mem_cons_self
  have hfollow : sharedItemDocument.scope.follow itemRef = .ok (.map sharedItem) := by
    decide +kernel
  have hitem : sharedItemDocument.graph.entries? (.map sharedItem) = some sharedItem := rfl
  have hpost : Given sharedItemDocument "application/json" sharedEntries
      [bareEndpoint .get "/b" ""] (bareEndpoint .post "/b" "") := by
    refine @Given.intro sharedItemDocument _ sharedEntries (.str "/b", itemRef)
      (.str "Post", .map []) _ _ [(.str "get", .map [])] _ _
      hpath hfollow hitem rfl ?_
    decide +kernel
  have hget : Given sharedItemDocument "application/json" sharedEntries
      [bareEndpoint .get "/b" "", bareEndpoint .post "/b" ""] (bareEndpoint .get "/b" "x") := by
    refine @Given.intro sharedItemDocument _ sharedEntries (.str "/b", itemRef)
      (.str "GET", .map [(.str "summary", .str "x")]) _ _
      [(.str "get", .map []), (.str "Post", .map [])] _ _ hpath hfollow hitem rfl ?_
    decide +kernel
  have h : resolve sharedItemDocument "application/json" = .ok _ := rfl
  obtain ⟨_, _, hfound⟩ := endpoints_told_apart_iff h rfl hkeys
  exact ⟨_, h, by decide +kernel, hfound _ _ hpost, hfound _ _ hget⟩

/-- One method under two keys of a path item, in small and in capital letters. -/
def doubledDocument : Document := .ofTree (.map [(.str "paths", .map [(.str "/a", .map [
  (.str "get", .map [(.str "summary", .str "first")]),
  (.str "GET", .map [(.str "summary", .str "second")])])])])

/-- Both operations become endpoints, and only the first is ever found. -/
theorem doubled_method : ∃ ir e e', resolve doubledDocument "application/json" = .ok ir ∧
    ir.endpoints = [e, e'] ∧ e.method = e'.method ∧ e.path = e'.path ∧
    ir.endpoint? e'.method.name e'.path = .ok (some e) ∧ e ≠ e' := by
  refine ⟨_, _, _, rfl, rfl, ?_⟩
  decide +kernel

end IR

end OpenApiIR
