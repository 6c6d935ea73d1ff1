import OpenApiIR.Proofs.Assembly
import OpenApiIR.Proofs.ChainMirror
import OpenApiIR.Proofs.Renumbering

/-! Operations are isolated from each other. Two documents that hold the same everywhere but in one
operation, and whose references keep out of the paths, resolve to the same models and to the same
endpoints and diagnostics before and after that operation. Sameness is of values and not of the
places they are stored at, so a collection that stands at several places counts as a part of each.
-/

namespace OpenApiIR

variable {g g' : Graph} {R : Value → Value → Prop} {P : Value → Prop} {es es' : Entries}

theorem Entries.Alike.along (h : es.Alike R es') (hp : ∀ e ∈ es, P e.2) :
    es.Alike (fun v v' => P v ∧ R v v') es' := by
  have hboth := (List.forall₂_and_left (p := fun e : Scalar × Value => P e.2) es es').mpr ⟨hp, h⟩
  exact hboth.imp fun e e' he => ⟨he.2.1, he.1, he.2.2⟩

/-- Values can be kept to those with a property, if it passes on to parts. -/
theorem Graph.Mirrors.along (M : g.Mirrors g' R) (hnull : P .null)
    (hpart : ∀ {v w}, P v → g.Part v w → P w) : g.Mirrors g' fun v v' => P v ∧ R v v' where
  null := ⟨hnull, M.null⟩
  scalar h := M.scalar h.2
  view := by
    rintro v v' ⟨hp, h⟩
    have hv := M.view h
    generalize hg : g.view v = a, g'.view v' = a' at hv
    cases hv with
    | scalar s => exact .scalar s
    | seq hs =>
      have hparts : ∀ w ∈ _, P w := fun w hw => hpart hp (.item hg hw)
      exact .seq ((List.forall₂_and_left _ _).mpr ⟨hparts, hs⟩)
    | pair a b c d => exact .pair a b c d
    | map he => exact .map (he.along fun e hm => hpart hp (.entry hg hm))
    | set ms ms' => exact .set ms ms'

theorem Entries.alikeAt_around {before before' after after' : Entries} {k : Scalar} {v v' : Value}
    {name : Scalar} (hb : before.Alike R before') (ha : after.Alike R after')
    (hk : k.sameKey name = false) :
    Entries.AlikeAt R name (before ++ (k, v) :: after) (before' ++ (k, v') :: after') := by
  have hmiddle : k.sameKey name = true → R v v' := fun h => by simp [hk] at h
  exact List.rel_append (hb.at name) (.cons ⟨rfl, hmiddle⟩ (ha.at name))

theorem Entries.field_around {before after : Entries} {k : Scalar} {v : Value} {name : String}
    (hk : k.sameKey (.str name) = false) :
    Entries.field (before ++ (k, v) :: after) name = Entries.field (before ++ after) name := by
  simp [Entries.field, Entries.value?, List.find?_append, hk]

namespace Scope

/-- No reference in a value leads to the paths. -/
def AvoidsPaths (sc : Scope) (v : Value) : Prop :=
  ∀ w text, sc.graph.Reaches v w → sc.refOf? w = some (.str text) →
    ¬ "#/paths".toList <+: text.toList

variable {sc : Scope}

theorem AvoidsPaths.part {v w : Value} (h : sc.AvoidsPaths v) (hp : sc.graph.Part v w) :
    sc.AvoidsPaths w := fun u text hu => h u text (.step hp hu)

theorem avoidsPaths_null : sc.AvoidsPaths .null := by
  intro w text hw hr
  rw [hw.of_scalar] at hr
  cases hr

theorem AvoidsPaths.entry {v : Value} (h : sc.AvoidsPaths v) (he : sc.graph.entries? v = some es) :
    ∀ e ∈ es, sc.AvoidsPaths e.2 :=
  fun _ hm => h.part (.entry (Graph.entries?_eq_some_iff.mp he) hm)

theorem avoidsPaths_of_texts {v : Value}
    (h : ∀ text ∈ sc.reachableRefs v, ¬ "#/paths".toList <+: text.toList) : sc.AvoidsPaths v := by
  intro w text hw hr
  have hreached := (sc.textsIn_self v).reached (sc.textsIn_cell v) hw
  exact h text (hreached.ref (sc.textsIn_cell v) hr)

/-- A reference whose first segment names the paths is written with that segment. -/
theorem first_segment_paths {ref : String} {s : List Char} {rest : List (List Char)}
    (h : Pointer.segments? ref = some (s :: rest)) (hs : Pointer.unescape s = "paths".toList) :
    "#/paths".toList <+: ref.toList := by
  have hplain : s = "paths".toList := Pointer.eq_of_unescape_eq (by decide) (by decide) hs
  unfold Pointer.segments? at h
  split at h
  · rename_i tail ht
    have hprefix := Text.splitOn_head_prefix (Option.some.inj h)
    rw [ht]
    rw [hplain] at hprefix
    exact List.cons_prefix_cons.mpr ⟨rfl, List.cons_prefix_cons.mpr ⟨rfl, hprefix⟩⟩
  · cases h

end Scope

namespace IR

open Report

section Mirror

variable (M : g.Mirrors g' R)

include M

theorem sectionOf_mirror {key : String} (subject : String) (h : es.AlikeAt R (.str key) es') :
    Paired (Entries.Alike R) (sectionOf g es key subject) (sectionOf g' es' key subject) := by
  have hf := M.fieldAt h
  have hv := M.view hf
  have hkind := M.kindName_view hf
  unfold sectionOf
  generalize g.view (es.field key) = a, g'.view (es'.field key) = a' at hv hkind
  cases hv with
  | map he => exact paired_silent he
  | scalar s =>
    cases s with
    | null => exact paired_silent .nil
    | _ => simpa only [hkind] using paired_noting .nil
  | _ => simpa only [hkind] using paired_noting .nil

theorem resolveModels_mirror (h : es.AlikeAt R (.str "components") es') :
    resolveModels g' es' = resolveModels g es := by
  apply Paired.eq
  refine (sectionOf_mirror M "components" h).bind fun cs cs' hcs => ?_
  refine (sectionOf_mirror M "components.schemas" (hcs.at _)).bind fun ss ss' hss => ?_
  have hentry : ∀ e e' : Scalar × Value, e'.1 = e.1 ∧ R e.2 e'.2 →
      Schema.modelEntry g' e' = Schema.modelEntry g e :=
    fun e e' he => Schema.modelEntry_mirror M he.1 he.2
  have hgather := gather_eq (hss.imp hentry)
  exact hgather ▸ ⟨rfl, rfl⟩

theorem infoLimit?_mirror (hlimit : ∀ {v v'}, R v v' → g'.limit? v' = g.limit? v)
    (h : es.AlikeAt R (.str "info") es') : infoLimit? g' es' = infoLimit? g es := by
  unfold infoLimit?
  rcases M.entries?_cases (M.fieldAt h) with ⟨he, he'⟩ | ⟨is, is', he, he', ha⟩
  · rw [he, he']
    rfl
  · rw [he, he']
    exact hlimit (M.field ha "version")

variable (htext : ∀ {v v'}, R v v' → g'.text v' = g.text v)

include htext

theorem resolveVersion_mirror (hlimit : ∀ {v v'}, R v v' → g'.limit? v' = g.limit? v)
    (hs : es.AlikeAt R (.str "swagger") es') (ho : es.AlikeAt R (.str "openapi") es') :
    resolveVersion g' es' = resolveVersion g es := by
  have hf := M.fieldAt ho
  have hshown : ∀ {v v'}, R v v' → g'.shown v' = g.shown v := by
    intro v v' hv
    unfold Graph.shown
    rw [hlimit hv, htext hv]
  have hcheck : checkVersion g' es' = checkVersion g es := by
    unfold checkVersion
    rcases hs.value?_cases with ⟨hn, hn'⟩ | ⟨w, w', hw, hw', hr⟩
    · simp only [hn, hn', M.isNull hf, hshown hf]
    · simp only [hw, hw', hshown hr]
  simp only [resolveVersion, hcheck, M.isNull hf, htext hf, hlimit hf]

theorem resolveInfo_mirror (h : es.AlikeAt R (.str "info") es') :
    resolveInfo g' es' = resolveInfo g es := by
  unfold resolveInfo
  rcases M.entries?_cases (M.fieldAt h) with ⟨he, he'⟩ | ⟨is, is', he, he', ha⟩
  · rw [he, he']
  · have field := fun name => M.field ha name
    simp only [he, he', M.asText (field "title"), M.isNull (field "version"),
      htext (field "version"), M.str? (field "description")]

end Mirror

theorem halts_parts {d : Document} {mediaType : String} {paths : Entries}
    (h : d.graph.entries? (es.field "paths") = some paths) :
    (resolveParts d mediaType es).Halts ↔ (resolveVersion d.graph es).Halts ∨
      (resolveModels d.graph es).Halts ∨
      (gather (Endpoint.pathEntry d.scope mediaType) paths).Halts := by
  have hs : sectionOf d.graph es "paths" "paths" = .silent paths := by
    simp only [sectionOf, Graph.entries?_eq_some_iff.mp h]
  simp [resolveParts, resolveEndpoints, Document.scope, hs]

theorem paths_come_last (d : Document) (mediaType : String) {paths : Entries}
    (h : d.graph.entries? (es.field "paths") = some paths) :
    (resolveEntries d mediaType es).1.endpoints =
        (gather (Endpoint.pathEntry d.scope mediaType) paths).value ∧
      (resolveEntries d mediaType es).1.diagnostics =
        ((resolveVersion d.graph es).trace.diagnostics ++
          (resolveModels d.graph es).trace.diagnostics) ++
        (gather (Endpoint.pathEntry d.scope mediaType) paths).trace.diagnostics := by
  have hs : sectionOf d.graph es "paths" "paths" = .silent paths := by
    simp only [sectionOf, Graph.entries?_eq_some_iff.mp h]
  constructor
  · simp [resolveEntries, resolveParts, resolveEndpoints, Document.scope, hs]
  · simp [resolveEntries, resolveParts, resolveEndpoints, Document.scope, hs]

end IR

/-- A place of an operation: the entries around it in the root, the paths and the path item. -/
structure Site where
  rootBefore : Entries
  rootAfter : Entries
  pathsBefore : Entries
  pathsAfter : Entries
  path : Scalar
  itemBefore : Entries
  itemAfter : Entries
  key : Scalar
  paths_first : rootBefore.declares "paths" = false
  is_method : ∃ m, Endpoint.Spells key m

namespace Site

def root (s : Site) (paths : Value) : Entries :=
  s.rootBefore ++ (.str "paths", paths) :: s.rootAfter

def paths (s : Site) (item : Value) : Entries := s.pathsBefore ++ (s.path, item) :: s.pathsAfter

def item (s : Site) (operation : Value) : Entries :=
  s.itemBefore ++ (s.key, operation) :: s.itemAfter

def shared (s : Site) : Value := Entries.field (s.itemBefore ++ s.itemAfter) "parameters"

/-- A document with this operation in this place. The path item is no reference. -/
def Holds (s : Site) (d : Document) (operation : Value) : Prop :=
  ∃ paths item, d.graph.entries? d.root = some (s.root paths) ∧
    d.graph.entries? paths = some (s.paths item) ∧
    d.graph.entries? item = some (s.item operation) ∧ d.scope.refOf? item = none

/-- One place, seen in two documents. -/
structure Same (g g' : Graph) (s s' : Site) : Prop where
  room : g'.room = g.room
  rootBefore : s.rootBefore.Alike (g.Same g') s'.rootBefore
  rootAfter : s.rootAfter.Alike (g.Same g') s'.rootAfter
  pathsBefore : s.pathsBefore.Alike (g.Same g') s'.pathsBefore
  pathsAfter : s.pathsAfter.Alike (g.Same g') s'.pathsAfter
  path : s'.path = s.path
  itemBefore : s.itemBefore.Alike (g.Same g') s'.itemBefore
  itemAfter : s.itemAfter.Alike (g.Same g') s'.itemAfter
  key : s'.key = s.key

theorem same_refl (g : Graph) (s : Site) : s.Same g g s := by
  have alike : ∀ es : Entries, es.Alike (g.Same g) es := fun es =>
    List.forall₂_same.mpr fun e _ => ⟨rfl, g.same_refl e.2⟩
  exact ⟨rfl, alike _, alike _, alike _, alike _, rfl, alike _, alike _, rfl⟩

/-! What the paths contribute: each path before the item, each key of the item, and each path after.
-/

variable (s : Site) (sc : Scope) (mediaType : String)

def itemReport (o : Scalar × Value) : Report (List Endpoint) :=
  Endpoint.itemEntry sc mediaType s.path.text s.shared o

def before : List (Report (List Endpoint)) :=
  s.pathsBefore.map (Endpoint.pathEntry sc mediaType) ++
    s.itemBefore.map (s.itemReport sc mediaType)

def after : List (Report (List Endpoint)) :=
  s.itemAfter.map (s.itemReport sc mediaType) ++ s.pathsAfter.map (Endpoint.pathEntry sc mediaType)

def reports (operation : Value) : List (Report (List Endpoint)) :=
  s.before sc mediaType ++ s.itemReport sc mediaType (s.key, operation) :: s.after sc mediaType

variable {s sc mediaType} {d d' : Document} {s' : Site} {operation operation' : Value}

theorem key_apart {name : String} (h : ∀ m : Method, Text.lower name ≠ Text.lower m.name) :
    s.key.sameKey (.str name) = false := by
  obtain ⟨m, text, hkey, hlower⟩ := s.is_method
  rw [hkey, Scalar.sameKey_str, beq_eq_false_iff_ne]
  intro he
  rw [he] at hlower
  exact h m hlower

theorem key_apart_parameters (s : Site) : s.key.sameKey (.str "parameters") = false :=
  key_apart fun m => by cases m <;> decide +kernel

theorem root_paths (s : Site) (paths : Value) : (s.root paths).field "paths" = paths := by
  have hbefore := s.paths_first
  unfold Entries.declares Entries.value? at hbefore
  rw [Option.isSome_map, Option.isSome_eq_false_iff, Option.isNone_iff_eq_none] at hbefore
  simp [root, Entries.field, Entries.value?, List.find?_append, hbefore, Scalar.sameKey_str]

theorem item_shared (s : Site) (operation : Value) :
    (s.item operation).field "parameters" = s.shared :=
  Entries.field_around s.key_apart_parameters

/-- The paths contribute as if the keys of the item stood among them. -/
theorem gather_paths (h : s.Holds d operation) (hpath : s.path.limit? = none)
    (mediaType : String) :
    ∃ paths item, d.graph.entries? d.root = some (s.root paths) ∧
      d.graph.entries? ((s.root paths).field "paths") = some (s.paths item) ∧
      Report.gather (Endpoint.pathEntry d.scope mediaType) (s.paths item) =
        Report.gather id (s.reports d.scope mediaType operation) := by
  obtain ⟨paths, item, hroot, hpaths, hitem, hplain⟩ := h
  have hfollow : d.scope.follow item = .ok item := by simp only [Scope.follow, hplain]
  have hmiddle : Endpoint.pathEntry d.scope mediaType (s.path, item) =
      Report.gather (s.itemReport d.scope mediaType) (s.item operation) := by
    rw [Endpoint.pathEntry_item hfollow hitem, s.item_shared, hpath]
    rfl
  refine ⟨paths, item, hroot, by rw [s.root_paths]; exact hpaths, ?_⟩
  rw [Site.paths, Report.gather_flat hmiddle]
  simp [reports, before, after, Site.item]

/-- What the two documents show alike, and no reference leads from there to the paths. -/
def Shared (d d' : Document) (v v' : Value) : Prop :=
  d.scope.AvoidsPaths v ∧ d.graph.Same d'.graph v v'

theorem shared_mirrors (d d' : Document) : d.graph.Mirrors d'.graph (Shared d d') :=
  (Graph.same_mirrors d.graph d'.graph).along Scope.avoidsPaths_null fun h hp => h.part hp

section Around

variable (hs : s.Same d.graph d'.graph s') (hrefs : d.scope.AvoidsPaths d.root)

include hs hrefs

theorem root_alikeAt {paths paths' : Value} (hroot : d.graph.entries? d.root = some (s.root paths))
    {name : String} (hname : name ≠ "paths") :
    (s.root paths).AlikeAt (Shared d d') (.str name) (s'.root paths') := by
  have havoid := hrefs.entry hroot
  have hbefore := hs.rootBefore.along fun e he => havoid e (List.mem_append_left _ he)
  have hafter := hs.rootAfter.along fun e he =>
    havoid e (List.mem_append_right _ (List.mem_cons_of_mem _ he))
  have hother : (Scalar.str "paths").sameKey (.str name) = false := by
    rw [Scalar.sameKey_str, beq_eq_false_iff_ne]
    exact hname.symm
  exact Entries.alikeAt_around hbefore hafter hother

/-- Chains that start at what the documents share end there. -/
theorem shared_scopes (h : s.Holds d operation) (h' : s'.Holds d' operation') :
    d.scope.Mirrors d'.scope (Shared d d') where
  graph := shared_mirrors d d'
  literal := fun hv => hv.2.literal
  limit? := fun hv => hv.2.limit? hs.room
  follow := by
    intro v v' hv
    obtain ⟨paths, _, hroot, _⟩ := h
    obtain ⟨paths', _, hroot', _⟩ := h'
    refine Scope.follow_mirror (shared_mirrors d d') rfl rfl (fun {v v' text} hv hr => ?_) hv
    refine Pointer.resolve_mirror (shared_mirrors d d') hroot hroot' fun segment rest hsegs => ?_
    -- A first segment that named the paths would stand at the start of the reference.
    refine root_alikeAt hs hrefs hroot fun hname => ?_
    have hsegment : Pointer.unescape segment = "paths".toList := by
      rw [← hname, String.toList_ofList]
    exact hv.1 v text (.refl v) hr (Scope.first_segment_paths hsegs hsegment)

theorem shared_entries (h : s.Holds d operation) :
    s.pathsBefore.Alike (Shared d d') s'.pathsBefore ∧
      s.pathsAfter.Alike (Shared d d') s'.pathsAfter ∧
      s.itemBefore.Alike (Shared d d') s'.itemBefore ∧
      s.itemAfter.Alike (Shared d d') s'.itemAfter := by
  obtain ⟨paths, item, hroot, hpaths, hitem, _⟩ := h
  have hinroot : (Scalar.str "paths", paths) ∈ s.root paths := by simp [Site.root]
  have hinpaths : (s.path, item) ∈ s.paths item := by simp [Site.paths]
  have havoid : d.scope.AvoidsPaths paths := hrefs.entry hroot _ hinroot
  have havoidItem : d.scope.AvoidsPaths item := havoid.entry hpaths _ hinpaths
  refine ⟨hs.pathsBefore.along fun e he => ?_, hs.pathsAfter.along fun e he => ?_,
    hs.itemBefore.along fun e he => ?_, hs.itemAfter.along fun e he => ?_⟩
  · exact havoid.entry hpaths e (by simp [Site.paths, he])
  · exact havoid.entry hpaths e (by simp [Site.paths, he])
  · exact havoidItem.entry hitem e (by simp [Site.item, he])
  · exact havoidItem.entry hitem e (by simp [Site.item, he])

theorem others_unchanged (h : s.Holds d operation) (h' : s'.Holds d' operation')
    (mediaType : String) :
    s'.before d'.scope mediaType = s.before d.scope mediaType ∧
      s'.after d'.scope mediaType = s.after d.scope mediaType := by
  have M := shared_scopes hs hrefs h h'
  obtain ⟨hpb, hpa, hib, hia⟩ := shared_entries hs hrefs h
  have hparameters : Shared d d' s.shared s'.shared :=
    (shared_mirrors d d').field (List.rel_append hib hia) "parameters"
  have hpath : ∀ e e' : Scalar × Value, e'.1 = e.1 ∧ Shared d d' e.2 e'.2 →
      Endpoint.pathEntry d'.scope mediaType e' = Endpoint.pathEntry d.scope mediaType e :=
    fun e e' he => Endpoint.pathEntry_mirror M he.1 he.2
  have hkey : ∀ o o' : Scalar × Value, o'.1 = o.1 ∧ Shared d d' o.2 o'.2 →
      s'.itemReport d'.scope mediaType o' = s.itemReport d.scope mediaType o := by
    intro o o' ho
    unfold itemReport
    rw [hs.path]
    exact Endpoint.itemEntry_mirror M ho.1 ho.2 hparameters
  constructor
  · unfold Site.before
    rw [Report.map_eq_of_forall₂ (hpb.imp hpath), Report.map_eq_of_forall₂ (hib.imp hkey)]
  · unfold Site.after
    rw [Report.map_eq_of_forall₂ (hia.imp hkey), Report.map_eq_of_forall₂ (hpa.imp hpath)]

end Around

/-- A resolved document in parts: what comes before the paths, and what each path and each key of
the item contributes. -/
structure Splits (s : Site) (sc : Scope) (mediaType : String) (operation : Value)
    (first : List Diagnostic) (ir : IR) : Prop where
  endpoints : ir.endpoints = (s.reports sc mediaType operation).flatMap (·.value)
  diagnostics : ir.diagnostics =
    first ++ (s.reports sc mediaType operation).flatMap (·.trace.diagnostics)

theorem path_written (h : s.Holds d operation) {ir : IR} (hok : IR.resolve d mediaType = .ok ir) :
    s.path.limit? = none := by
  obtain ⟨paths, item, hroot, hpaths, _⟩ := h
  obtain ⟨es, hes, hu, _⟩ := (IR.resolve_ok_iff d mediaType).mp hok
  obtain rfl := Option.some.inj (hroot.symm.trans hes)
  refine Option.eq_none_iff_forall_ne_some.mpr fun l hl => hu ?_
  have hentries : IR.pathEntries d.graph (s.root paths) = s.paths item := by
    rw [IR.pathEntries, Graph.mapBelow, s.root_paths, hpaths, Option.getD_some]
  have hmem : (s.path, item) ∈ IR.pathEntries d.graph (s.root paths) := by
    rw [hentries]
    simp [Site.paths]
  exact .path hmem hl

/-- No operation breaks anything off, whatever it is. -/
theorem halts_reports : (Report.gather id (s.reports sc mediaType operation)).Halts ↔
    (∃ r ∈ s.before sc mediaType, r.Halts) ∨ ∃ r ∈ s.after sc mediaType, r.Halts := by
  have hmiddle : ¬ (s.itemReport sc mediaType (s.key, operation)).Halts :=
    Endpoint.not_halts_itemEntry
  simp [reports, hmiddle, or_and_right, exists_or]

theorem resolve_splits (h : s.Holds d operation) (hpath : s.path.limit? = none)
    (mediaType : String) :
    ∃ paths, d.graph.entries? d.root = some (s.root paths) ∧
      s.Splits d.scope mediaType operation
        ((IR.resolveVersion d.graph (s.root paths)).trace.diagnostics ++
          (IR.resolveModels d.graph (s.root paths)).trace.diagnostics)
        (IR.resolveEntries d mediaType (s.root paths)).1 ∧
      ((IR.resolveParts d mediaType (s.root paths)).Halts ↔
        (IR.resolveVersion d.graph (s.root paths)).Halts ∨
        (IR.resolveModels d.graph (s.root paths)).Halts ∨
        (∃ r ∈ s.before d.scope mediaType, r.Halts) ∨
        ∃ r ∈ s.after d.scope mediaType, r.Halts) := by
  obtain ⟨paths, item, hroot, hpaths, hgather⟩ := gather_paths h hpath mediaType
  obtain ⟨hendpoints, hdiagnostics⟩ := IR.paths_come_last d mediaType hpaths
  refine ⟨paths, hroot, ⟨?_, ?_⟩, ?_⟩
  · rw [hendpoints, hgather, Report.value_gather]
    rfl
  · rw [hdiagnostics, hgather, Report.diagnostics_gather]
    rfl
  · rw [IR.halts_parts hpaths, hgather, halts_reports]

end Site

namespace IR

variable {d d' : Document} {s s' : Site} {operation operation' : Value} {mediaType : String}
  {ir : IR}

/-- Breaking one operation never changes another. Of two documents that differ in one operation it
is enough that the references of the one keep out of the paths: if it is resolved, the other is
resolved to the same version, info and models, and every other path and every other key contributes
the same endpoints and diagnostics, in the same order. -/
theorem operations_isolated (h : s.Holds d operation) (h' : s'.Holds d' operation')
    (hs : s.Same d.graph d'.graph s') (hrefs : d.scope.AvoidsPaths d.root)
    (hok : resolve d mediaType = .ok ir) :
    ∃ ir' first, resolve d' mediaType = .ok ir' ∧
      ir'.openapiVersion = ir.openapiVersion ∧ ir'.info = ir.info ∧ ir'.models = ir.models ∧
      s.Splits d.scope mediaType operation first ir ∧
      s'.Splits d'.scope mediaType operation' first ir' ∧
      s'.before d'.scope mediaType = s.before d.scope mediaType ∧
      s'.after d'.scope mediaType = s.after d.scope mediaType := by
  have M := Site.shared_mirrors d d'
  have htext : ∀ {v v'}, Site.Shared d d' v v' → d'.graph.text v' = d.graph.text v :=
    fun hv => hv.2.text
  have hlimit : ∀ {v v'}, Site.Shared d d' v v' → d'.graph.limit? v' = d.graph.limit? v :=
    fun hv => hv.2.limit? hs.room
  have hpath := Site.path_written h hok
  obtain ⟨paths, hroot, hsplits, hhalts⟩ := s.resolve_splits h hpath mediaType
  obtain ⟨paths', hroot', hsplits', hhalts'⟩ := s'.resolve_splits h' (hs.path ▸ hpath) mediaType
  have hat : ∀ name : String, name ≠ "paths" →
      (s.root paths).AlikeAt (Site.Shared d d') (.str name) (s'.root paths') :=
    fun name hname => Site.root_alikeAt hs hrefs hroot hname
  have hversion :=
    resolveVersion_mirror M htext hlimit (hat "swagger" (by decide)) (hat "openapi" (by decide))
  have hmodels := resolveModels_mirror M (hat "components" (by decide))
  have hinfo := resolveInfo_mirror M htext (hat "info" (by decide))
  have hinfoLimit := infoLimit?_mirror M hlimit (hat "info" (by decide))
  obtain ⟨hbefore, hafter⟩ := Site.others_unchanged hs hrefs h h' mediaType
  rw [hversion, hmodels] at hsplits'
  rw [hversion, hmodels, hbefore, hafter] at hhalts'
  obtain ⟨es, hes, hu, rfl⟩ := (resolve_ok_iff d mediaType).mp hok
  obtain rfl := Option.some.inj (hroot.symm.trans hes)
  -- Whatever would break the other off stands outside the operation, so here as well.
  have hu' : ¬ Unhandled d' (s'.root paths') := by
    have hparts := hhalts'.trans hhalts.symm
    rw [unhandled_iff d' mediaType, hinfoLimit, hparts, ← unhandled_iff]
    exact hu
  exact ⟨_, _, (resolve_ok_iff d' mediaType).mpr ⟨_, hroot', hu', rfl⟩,
    congrArg Report.value hversion, hinfo, congrArg Report.value hmodels, hsplits, hsplits',
    hbefore, hafter⟩

def rosterSite : Site where
  rootBefore := [(.str "components", .map [
    (.str "schemas", .map [(.str "Member", .map [(.str "type", .str "object")])]),
    (.str "parameters", .map [(.str "Limit", .map [(.str "name", .str "limit"),
      (.str "in", .str "query"), (.str "schema", .map [(.str "type", .str "integer")])])])])]
  rootAfter := [(.str "info", .map [(.str "title", .str "Roster")])]
  pathsBefore := []
  pathsAfter := [(.str "/lost", .map [(.str "$ref", .str "#/nowhere")])]
  path := .str "/roster"
  itemBefore := [(.str "parameters",
    .seq [.map [(.str "$ref", .str "#/components/parameters/Limit")]]),
    (.str "get", .map [])]
  itemAfter := [(.str "delete", .map [(.str "deprecated", .bool true)])]
  key := .str "Post"
  paths_first := rfl
  is_method := ⟨.post, "Post", rfl, by decide +kernel⟩

def rosterDocument (operation : Value) : Document :=
  .ofTree (.map (rosterSite.root (.map (rosterSite.paths (.map (rosterSite.item operation))))))

theorem roster_unharmed : ∃ ir ir',
    resolve (rosterDocument (.map [(.str "summary", .str "Add")])) "application/json" = .ok ir ∧
    resolve (rosterDocument (.int 7)) "application/json" = .ok ir' ∧ ir'.models = ir.models ∧
    ir.endpoints.map (fun e => (e.method, e.parameters.length)) =
      [(.get, 1), (.post, 1), (.delete, 1)] ∧
    ir'.endpoints.map (fun e => (e.method, e.parameters.length)) = [(.get, 1), (.delete, 1)] ∧
    ir.diagnostics.map (·.subject) = ["openapi", "/lost"] ∧
    ir'.diagnostics.map (·.subject) = ["openapi", "POST /roster", "/lost"] := by
  have hholds : ∀ operation, rosterSite.Holds (rosterDocument operation) operation :=
    fun operation => ⟨_, _, rfl, rfl, rfl, rfl⟩
  have hrefs : (rosterDocument (.int 7)).scope.AvoidsPaths (rosterDocument (.int 7)).root :=
    Scope.avoidsPaths_of_texts (by decide +kernel)
  have hok' : (resolve (rosterDocument (.int 7)) "application/json").toOption.map (fun ir =>
      (ir.endpoints.map (fun e => (e.method, e.parameters.length)),
        ir.diagnostics.map (·.subject))) =
      some ([(.get, 1), (.delete, 1)], ["openapi", "POST /roster", "/lost"]) := by decide +kernel
  obtain ⟨ir', h', hparts'⟩ := exists_of_toOption hok'
  obtain ⟨ir, first, h, _, _, hmodels, _⟩ := operations_isolated (hholds (.int 7))
    (hholds (.map [(.str "summary", .str "Add")])) (Site.same_refl _ _) hrefs h'
  have hok : (resolve (rosterDocument (.map [(.str "summary", .str "Add")]))
      "application/json").toOption.map (fun ir =>
        (ir.endpoints.map (fun e => (e.method, e.parameters.length)),
          ir.diagnostics.map (·.subject))) =
      some ([(.get, 1), (.post, 1), (.delete, 1)], ["openapi", "/lost"]) := by decide +kernel
  rw [h] at hok
  obtain ⟨hendpoints, hdiagnostics⟩ := Prod.mk.inj (Option.some.inj hok)
  obtain ⟨hendpoints', hdiagnostics'⟩ := Prod.mk.inj hparts'
  exact ⟨ir, ir', h, h', hmodels.symm, hendpoints, hendpoints', hdiagnostics, hdiagnostics'⟩

end IR

end OpenApiIR
