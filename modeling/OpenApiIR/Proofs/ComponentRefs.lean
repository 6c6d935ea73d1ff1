import OpenApiIR.Proofs.KnownKeys
import OpenApiIR.Proofs.Navigation
import OpenApiIR.Proofs.RenderedKeys
import OpenApiIR.Proofs.UnguardedChain

/-! References to components. The last segment of such a reference is the text of a key, escaped,
and a pointer takes it for a key that is a text. Everything else that a key names is known by the
text of the key, whatever the key is. Main statement: a reference reaches an entry exactly where the
text of its key is itself a key of that entry, so that all texts are reached, and numbers and truth
values are not. -/

namespace OpenApiIR

/-- The entries below one key of the components of the document with this root. -/
inductive Graph.ComponentsOf (g : Graph) (root : Value) (kind : String) (entries : Entries) :
    Prop where
  | intro {es components : Entries} : g.entries? root = some es →
      g.entries? (es.field "components") = some components →
      g.entries? (components.field kind) = some entries → ComponentsOf g root kind entries

namespace Pointer

def componentPath (kind : String) : List Char :=
  "components".toList ++ '/' :: (kind.toList ++ ['/'])

/-- The reference to the component of a kind under a key, which may hold any characters. -/
def componentRef (kind key : String) : String :=
  "#/components/" ++ kind ++ "/" ++ String.ofList (escape key.toList)

variable {g : Graph} {root v : Value} {ref kind name : String} {raw : List Char} {entries : Entries}

theorem names_plain (h : '~' ∉ name.toList) : Names (unescape name.toList) (.key name) := by
  have hnames := Names.key name.toList
  rwa [String.ofList_toList, ← unescape_of_not_mem h] at hnames

theorem leads_field {es : Entries} {key : String} (hv : g.entries? v = some es)
    (hu : g.entries? (es.field key) = some entries) : (Move.key key).Leads g v (es.field key) := by
  refine .key hv (Entries.value?_of_field fun hnull => ?_)
  rw [hnull] at hu
  cases hu

theorem route_components (h : g.ComponentsOf root kind entries) :
    ∃ v, Route g root [.key "components", .key kind] v ∧ g.entries? v = some entries := by
  obtain ⟨hroot, hcomponents, hentries⟩ := h
  exact ⟨_, .cons (leads_field hroot hcomponents)
    (.cons (leads_field hcomponents hentries) (.nil _)),
    hentries⟩

theorem split_path {first second third : List Char} (hfirst : '/' ∉ first) (hsecond : '/' ∉ second)
    (hthird : '/' ∉ third) : (first ++ '/' :: (second ++ ['/']) ++ third).splitOn '/' =
      [first, second, third] := by
  have happend : first ++ '/' :: (second ++ ['/']) ++ third =
      first ++ '/' :: (second ++ '/' :: third) := by simp
  rw [happend, List.splitOn_append_cons_self_of_not_mem hfirst,
    List.splitOn_append_cons_self_of_not_mem hsecond, List.splitOn_eq_singleton hthird]

theorem resolve_component (hs : g.ComponentsOf root kind entries)
    (hkind : '/' ∉ kind.toList ∧ '~' ∉ kind.toList) (hraw : '/' ∉ raw)
    (href : ref.toList = '#' :: '/' :: (componentPath kind ++ raw)) :
    resolve g root ref = match entries.value? (.str (String.ofList (unescape raw))) with
      | some v => .ok v
      | none => .error (.missingKey ref (String.ofList (unescape raw))) := by
  have hsplit : (componentPath kind ++ raw).splitOn '/' = ["components".toList, kind.toList, raw] :=
    split_path (by decide) hkind.1 hraw
  have hnames : List.Forall₂ Names (["components".toList, kind.toList].map unescape)
      [.key "components", .key kind] :=
    .cons (names_plain (by decide)) (.cons (names_plain hkind.2) .nil)
  obtain ⟨u, hroute, hu⟩ := route_components hs
  cases hv : entries.value? (.str (String.ofList (unescape raw))) with
  | some v =>
    refine resolve_eq_ok_iff.mpr ⟨_, ⟨_, href, ?_⟩, hroute.snoc (.key hu hv)⟩
    rw [hsplit]
    exact List.rel_append hnames (.cons (.key (unescape raw)) .nil)
  | none =>
    exact resolve_eq_error_iff.mpr (.stuck href hsplit hnames hroute (.missingKey hu hv))

theorem componentRef_chars (kind key : String) :
    (componentRef kind key).toList = '#' :: '/' :: (componentPath kind ++ escape key.toList) := by
  have hstart : "#/components/".toList = '#' :: '/' ::
    ("components".toList ++ ['/']) := by decide +kernel
  have hkey : (String.ofList (escape key.toList)).toList = escape key.toList := String.toList_ofList
  have hparts : (componentRef kind key).toList =
      "#/components/".toList ++ kind.toList ++ ['/'] ++
        (String.ofList (escape key.toList)).toList := by
    simp only [componentRef, String.toList_append]
    rfl
  -- Whatever the first segment is: its letters are not to be looked at.
  have hjoin : ∀ first : List Char, '#' :: '/' :: (first ++ ['/']) ++ kind.toList ++ ['/'] ++
      escape key.toList = '#' :: '/' ::
        (first ++ '/' :: (kind.toList ++ ['/']) ++ escape key.toList) := by
    simp
  rw [hparts, hstart, hkey]
  exact hjoin _

theorem resolve_componentRef (hs : g.ComponentsOf root kind entries)
    (hkind : '/' ∉ kind.toList ∧ '~' ∉ kind.toList) (key : String) :
    resolve g root (componentRef kind key) = match entries.value? (.str key) with
      | some v => .ok v
      | none => .error (.missingKey (componentRef kind key) key) := by
  rw [resolve_component hs hkind (slash_not_mem_escape key.toList) (componentRef_chars kind key),
    unescape_escape, String.ofList_toList]

end Pointer

inductive Reusable where
  | parameters
  | requestBodies
  | responses

def Reusable.name : Reusable → String
  | .parameters => "parameters"
  | .requestBodies => "requestBodies"
  | .responses => "responses"

theorem Reusable.name_plain (kind : Reusable) :
    '/' ∉ kind.name.toList ∧ '~' ∉ kind.name.toList := by
  cases kind <;> decide

/-- What the reference to the text of a key comes to: the entry under that text, or nothing. -/
structure ReachedByText (d : Document) (kind : Reusable) (entries : Entries) (e : Scalar × Value)
    (u : Value) : Prop where
  reached : d.scope.Hop u e.2 ↔ (.str e.1.text, e.2) ∈ entries
  text : (∃ name, e.1 = .str name) → d.scope.Hop u e.2
  followed : d.scope.Hop u e.2 → d.scope.refOf? e.2 = none → d.scope.follow u = .ok e.2
  missing : (∀ w, (.str e.1.text, w) ∉ entries) → d.scope.follow u =
    .error (.missingKey (Pointer.componentRef kind.name e.1.text) e.1.text)

/-- What else an entry can stand for, always known by the text of its key. -/
structure KnownByText (d : Document) (mediaType : String) (e : Scalar × Value) : Prop where
  model : ∀ m ∈ (Schema.modelEntry d.graph e).value, m.name = e.1.text
  property : ∀ model required, ∀ p ∈ (Schema.propertyEntry d.graph model required e).value,
    p.name = e.1.text
  path : ∀ ep ∈ (Endpoint.pathEntry d.scope mediaType e).value, ep.path = e.1.text
  response : ∀ subject, (Response.entry d.scope mediaType subject e).value.1 = e.1.text

variable {d : Document} {kind : Reusable} {entries : Entries} {e : Scalar × Value} {u v : Value}

theorem Scope.hop_iff {text : String} (hu : d.scope.refOf? u = some (.str text)) :
    d.scope.Hop u v ↔ Pointer.resolve d.graph d.root text = .ok v := by
  constructor
  · rintro ⟨hr, hroot, hp⟩
    obtain rfl := Scalar.str.inj (Value.scalar.inj (Option.some.inj (hu.symm.trans hr)))
    obtain rfl := Option.some.inj hroot
    exact hp
  · intro hp
    exact .intro hu rfl hp

theorem reachedByText (hs : d.graph.ComponentsOf d.root kind.name entries) (hd : entries.Distinct)
    (he : e ∈ entries)
    (hu : d.scope.refOf? u = some (.str (Pointer.componentRef kind.name e.1.text))) :
    ReachedByText d kind entries e u := by
  have hresolve := Pointer.resolve_componentRef hs kind.name_plain e.1.text
  have hreached : d.scope.Hop u e.2 ↔ (.str e.1.text, e.2) ∈ entries := by
    rw [Scope.hop_iff hu, hresolve,
      ← Entries.value?_eq_some_iff fun _ _ hv hw => hd.value_unique hv hw]
    cases entries.value? (.str e.1.text) <;> simp
  constructor
  · exact hreached
  · rintro ⟨name, hname⟩
    refine hreached.mpr ?_
    have htext : (.str e.1.text, e.2) = e := Prod.ext (by rw [hname]; rfl) rfl
    rw [htext]
    exact he
  · intro hhop hnone
    exact Scope.follow_ok_iff.mpr ⟨1, .cons hhop (.nil e.2), hnone⟩
  · intro hnone
    have hvalue : entries.value? (.str e.1.text) = none :=
      Option.eq_none_iff_forall_ne_some.mpr fun w hw => hnone w (Entries.mem_of_value?_str hw)
    rw [hvalue] at hresolve
    exact (Scope.follow_broken_iff.mpr ⟨0, u, .nil u, .broken hu rfl hresolve⟩).1

theorem knownByText (d : Document) (mediaType : String) (e : Scalar × Value) :
    KnownByText d mediaType e where
  model m hm := (Schema.mem_model_names.mp (List.mem_map_of_mem hm)).1
  property model required p hp := by
    unfold Schema.propertyEntry at hp
    dsimp only at hp
    rw [Report.value_showing] at hp
    split at hp
    · rw [List.mem_singleton.mp hp]
      rfl
    · cases hp
  path ep hep := Endpoint.path_of_mem hep
  response _ := Response.code_entry e

/-- A reference reaches the component under a key exactly where the text of the key is a key of that
component: always if the key is a text, and otherwise, but for a component under that text too,
never. All else that stands under a key is known by its text. -/
theorem component_reached_iff (kind : Reusable) (mediaType : String)
    (hs : d.graph.ComponentsOf d.root kind.name entries) (hd : entries.Distinct) :
    (∀ e ∈ entries, ∀ u,
      d.scope.refOf? u = some (.str (Pointer.componentRef kind.name e.1.text)) →
        ReachedByText d kind entries e u) ∧
    ∀ e, KnownByText d mediaType e :=
  ⟨fun _ he _ hu => reachedByText hs hd he hu, fun e => knownByText d mediaType e⟩

/-- A parameter under a text with a slash, one under a number, and one under a truth value whose
text is a key as well. -/
def keyedParameters : Entries := [
  (.str "a/b", .map [(.str "name", .str "limit")]), (.int 404, .map []), (.bool true, .map []),
  (.str "True", .map [(.str "name", .str "page")])]

def keyedDocument : Document := .ofTree (.map [
  (.str "components", .map [(.str "parameters", .map keyedParameters)])])

theorem keyed_parameters_reached :
    keyedDocument.scope.follow (Scope.refTo "#/components/parameters/a~1b") =
      .ok (.map [(.str "name", .str "limit")]) ∧
    keyedDocument.scope.follow (Scope.refTo "#/components/parameters/404") =
      .error (.missingKey "#/components/parameters/404" "404") ∧
    ¬ keyedDocument.scope.Hop (Scope.refTo "#/components/parameters/True") (.map []) := by
  have hs : keyedDocument.graph.ComponentsOf keyedDocument.root Reusable.parameters.name
      keyedParameters := .intro rfl rfl rfl
  have hd : keyedParameters.Distinct := by
    unfold Entries.Distinct
    decide +kernel
  obtain ⟨hreached, _⟩ := component_reached_iff .parameters "application/json" hs hd
  have hslash := hreached (.str "a/b", .map [(.str "name", .str "limit")]) (.head _)
    (Scope.refTo "#/components/parameters/a~1b") (by decide +kernel)
  have hnumber := hreached (.int 404, .map []) (.tail _ (.head _))
    (Scope.refTo "#/components/parameters/404") (by decide +kernel)
  have htruth := hreached (.bool true, .map []) (.tail _ (.tail _ (.head _)))
    (Scope.refTo "#/components/parameters/True") (by decide +kernel)
  refine ⟨hslash.followed (hslash.text ⟨_, rfl⟩) rfl, ?_, fun h => ?_⟩
  · have htext : (Scalar.int 404).text = "404" := by decide +kernel
    have hkey : Scalar.str "404" ∉ keyedParameters.map (·.1) := by
      decide +kernel
    have hnone : ∀ w, (Scalar.str "404", w) ∉ keyedParameters := fun w hw =>
      hkey (List.mem_map_of_mem hw)
    exact (hnumber.missing (htext ▸ hnone)).trans (by decide +kernel)
  · have hmem := htruth.reached.mp h
    revert hmem
    decide +kernel

def referredText : String :=
  "paths:\n /a:\n  get:\n   responses:\n    404:\n     $ref: '#/components/responses/404'\n" ++
  "components:\n responses:\n  404:\n   description: Missing\n"

def referredResponses : Entries := [(.int 404, .map [(.str "description", .str "Missing")])]

def referredDocument : Document := .ofTree (.map [
  (.str "paths", .map [(.str "/a", .map [(.str "get", .map [(.str "responses",
    .map [(.int 404, Scope.refTo "#/components/responses/404")])])])]),
  (.str "components", .map [(.str "responses", .map referredResponses)])])

/-- The response is known by the text of its number, and the reference to that text leads nowhere.
-/
theorem numbered_component_missed : Yaml.read 900 referredText = .ok referredDocument ∧
    referredDocument.graph.ComponentsOf referredDocument.root Reusable.responses.name
      referredResponses ∧
    Pointer.componentRef Reusable.responses.name (Scalar.int 404).text =
      "#/components/responses/404" ∧
    referredDocument.scope.follow (Scope.refTo "#/components/responses/404") =
      .error (.missingKey "#/components/responses/404" "404") ∧
    ∃ ir, IR.resolve referredDocument "application/json" = .ok ir ∧
      ir.endpoints.flatMap (fun ep => ep.responses.map fun r => (r.1, r.2.description)) =
        [("404", "")] ∧
      ir.diagnostics.map (·.kind) = [.document, .endpoint] := by
  have hok : (IR.resolve referredDocument "application/json").toOption.map (fun ir =>
      (ir.endpoints.flatMap fun ep => ep.responses.map fun r => (r.1, r.2.description),
        ir.diagnostics.map (·.kind))) = some ([("404", "")], [.document, .endpoint]) := by
    decide +kernel
  obtain ⟨ir, h, hparts⟩ := IR.exists_of_toOption hok
  exact ⟨by decide +kernel, .intro rfl rfl rfl, by decide +kernel, by decide +kernel, ir, h,
    Prod.mk.inj hparts⟩

end OpenApiIR
