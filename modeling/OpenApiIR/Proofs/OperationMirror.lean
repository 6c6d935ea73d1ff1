import OpenApiIR.Operation.Endpoint
import OpenApiIR.Proofs.Mirror

/-! Two scopes side by side. An operation is resolved by looks at its parts and by chains of
references that start there. Where related values look alike and their chains come to one end,
related operations contribute the same endpoint and the same diagnostics. -/

namespace OpenApiIR

/-- Chains of references that come to related values, or break off with the same error. -/
inductive Scope.SameEnd (R : Value → Value → Prop) :
    Except RefError Value → Except RefError Value → Prop where
  | ok {w w' : Value} : R w w' → SameEnd R (.ok w) (.ok w')
  | error (e : RefError) : SameEnd R (.error e) (.error e)

/-- Unlike fragments, operations also follow references, and a message may show a value as a text.
-/
structure Scope.Mirrors (sc sc' : Scope) (R : Value → Value → Prop) : Prop where
  graph : sc.graph.Mirrors sc'.graph R
  literal : ∀ {v v'}, R v v' → sc'.graph.literal v' = sc.graph.literal v
  limit? : ∀ {v v'}, R v v' → sc'.graph.limit? v' = sc.graph.limit? v
  follow : ∀ {v v'}, R v v' → SameEnd R (sc.follow v) (sc'.follow v')

open Report

variable {sc sc' : Scope} {R : Value → Value → Prop} {v v' shared shared' own own' : Value}
  {es es' : Entries} {subject mediaType : String}

section Media

variable {g g' : Graph} (M : g.Mirrors g' R)

include M

theorem mediaSchema?_mirror (h : R v v') (mediaType : String) :
    (mediaSchema? g v mediaType = none ∧ mediaSchema? g' v' mediaType = none) ∨
      ∃ w w', mediaSchema? g v mediaType = some w ∧ mediaSchema? g' v' mediaType = some w' ∧
        R w w' := by
  unfold mediaSchema?
  rcases M.entries?_cases h with ⟨he, he'⟩ | ⟨es, es', he, he', ha⟩
  · exact Or.inl ⟨by rw [he]; rfl, by rw [he']; rfl⟩
  · rcases ha.value?_cases (.str mediaType) with ⟨hn, hn'⟩ | ⟨w, w', hw, hw', hr⟩
    · exact Or.inl ⟨by simp [he, hn], by simp [he', hn']⟩
    · rcases M.entries?_cases hr with ⟨hm, hm'⟩ | ⟨ms, ms', hm, hm', hms⟩
      · exact Or.inl ⟨by simp [he, hw, hm], by simp [he', hw', hm']⟩
      · have hs := M.field hms "schema"
        have hmap := M.isMap hs
        cases hb : g.isMap (ms.field "schema") with
        | false => exact Or.inl ⟨by simp [he, hw, hm, hb], by simp [he', hw', hm', hmap, hb]⟩
        | true =>
          exact Or.inr ⟨_, _, by simp [he, hw, hm, hb], by simp [he', hw', hm', hmap, hb], hs⟩

theorem declaredTypes_mirror (h : R v v') : declaredTypes g' v' = declaredTypes g v := by
  unfold declaredTypes
  rcases M.entries?_cases h with ⟨he, he'⟩ | ⟨es, es', he, he', ha⟩
  · rw [he, he']
  · have hkeys : es'.keys = es.keys := by
      clear he he'
      induction ha with
      | nil => rfl
      | cons hk _ ih => rw [Entries.keys, List.map_cons, hk.1]; exact congrArg _ ih
    rw [he, he', Option.getD_some, Option.getD_some, hkeys]

theorem Endpoint.tagsOf_mirror (h : R v v') : tagsOf g' v' = tagsOf g v := by
  unfold tagsOf
  rcases M.items?_cases h with ⟨hi, hi'⟩ | ⟨xs, ys, hi, hi', hs⟩
  · rw [hi, hi']
  · rw [hi, hi', Option.getD_some, Option.getD_some]
    clear hi hi'
    induction hs with
    | nil => rfl
    | cons hr _ ih => rw [List.filterMap_cons, List.filterMap_cons, M.str? hr, ih]

end Media

section Operations

variable (M : sc.Mirrors sc' R)

include M

theorem followToMap_mirror (what : String) (h : R v v') :
    (∃ p, followToMap sc what v = .error p ∧ followToMap sc' what v' = .error p) ∨
      ∃ es es', followToMap sc what v = .ok es ∧ followToMap sc' what v' = .ok es' ∧
        es.Alike R es' := by
  have hf := M.follow h
  unfold followToMap
  generalize sc.follow v = r, sc'.follow v' = r' at hf
  cases hf with
  | error e => exact Or.inl ⟨_, rfl, rfl⟩
  | @ok w w' hw =>
    dsimp only
    rcases M.graph.entries?_cases hw with ⟨he, he'⟩ | ⟨es, es', he, he', ha⟩
    · rw [he, he', M.graph.kindName hw]
      exact Or.inl ⟨_, rfl, rfl⟩
    · rw [he, he']
      exact Or.inr ⟨es, es', rfl, rfl, ha⟩

namespace Parameter

theorem identity_mirror (h : es.Alike R es') : identity es' = identity es := by
  simp only [identity, M.graph.asText (M.graph.field h "name"),
    M.graph.asText (M.graph.field h "in")]

theorem merge_mirror {ps ps' qs qs' : List Entries} (hp : List.Forall₂ (Entries.Alike R) ps ps')
    (hq : List.Forall₂ (Entries.Alike R) qs qs') :
    List.Forall₂ (Entries.Alike R) (merge ps qs) (merge ps' qs') := by
  have taken : qs'.map identity = qs.map identity := by
    induction hq with
    | nil => rfl
    | cons h _ ih => rw [List.map_cons, List.map_cons, identity_mirror M h, ih]
  have kept : List.Forall₂ (Entries.Alike R)
      (ps.filter fun es => !(qs.map identity).contains (identity es))
      (ps'.filter fun es => !(qs'.map identity).contains (identity es)) :=
    List.rel_filter (fun es es' h => by simp only [taken, identity_mirror M h]) hp
  exact List.rel_append kept hq

theorem targetEntry_mirror (h : R v v') :
    Paired (List.Forall₂ (Entries.Alike R)) (targetEntry sc subject v)
      (targetEntry sc' subject v') := by
  have hf := M.follow h
  unfold targetEntry
  generalize sc.follow v = r, sc'.follow v' = r' at hf
  cases hf with
  | error e => exact paired_refusing (S := List.Forall₂ (Entries.Alike R)) .nil
  | @ok w w' hw =>
    dsimp only
    rcases M.graph.entries?_cases hw with ⟨he, he'⟩ | ⟨es, es', he, he', ha⟩
    · rw [he, he', M.graph.kindName hw]
      exact paired_noting .nil
    · rw [he, he']
      exact paired_silent (.cons ha .nil)

theorem targets_mirror (h : R v v') :
    Paired (List.Forall₂ (Entries.Alike R)) (targets sc subject v) (targets sc' subject v') := by
  have hv := M.graph.view h
  have hkind := M.graph.kindName_view h
  unfold targets
  generalize sc.graph.view v = a, sc'.graph.view v' = a' at hv hkind
  cases hv with
  | seq hs => exact paired_gather (hs.imp fun _ _ hr => targetEntry_mirror M hr)
  | scalar s =>
    cases s with
    | null => exact paired_silent .nil
    | _ => simpa only [hkind] using paired_noting .nil
  | _ => simpa only [hkind] using paired_noting .nil

theorem resolve_mirror (h : es.Alike R es') : resolve sc'.graph es' = resolve sc.graph es := by
  have field := fun name => M.graph.field h name
  unfold resolve
  rw [M.graph.asText (field "name"), M.graph.str? (field "in"), M.literal (field "in"),
    M.limit? (field "in"), M.graph.isMap (field "schema"), M.graph.isTrue (field "required"),
    Schema.typeOf_mirror M.graph (field "schema"), M.graph.asText (field "description")]

theorem resolveAll_mirror (hs : R shared shared') (ho : R own own') :
    resolveAll sc' subject shared' own' = resolveAll sc subject shared own := by
  apply Paired.eq
  refine (targets_mirror M hs).bind fun ps ps' hps => ?_
  refine (targets_mirror M ho).bind fun qs qs' hqs => ?_
  have hentry : ∀ es es' : Entries, es.Alike R es' →
      mergedEntry sc'.graph subject es' = mergedEntry sc.graph subject es := by
    intro es es' h
    simp only [mergedEntry, resolve_mirror M h]
  have hgather := gather_eq ((merge_mirror M hps hqs).imp hentry)
  exact hgather ▸ ⟨rfl, rfl⟩

end Parameter

theorem RequestBody.resolve_mirror (h : R v v') :
    resolve sc' mediaType v' = resolve sc mediaType v := by
  unfold resolve
  rw [M.graph.isNull h]
  split
  · rfl
  · rcases followToMap_mirror M "requestBody" h with ⟨p, hp, hp'⟩ | ⟨es, es', he, he', ha⟩
    · simp only [hp, hp', bind, Except.bind]
    · have hc := M.graph.field ha "content"
      simp only [he, he', bind, Except.bind]
      rcases mediaSchema?_mirror M.graph hc mediaType with ⟨hn, hn'⟩ | ⟨w, w', hw, hw', hr⟩
      · simp only [hn, hn']
      · simp only [hw, hw', Schema.typeOf_mirror M.graph hr, declaredTypes_mirror M.graph hc,
          M.graph.isTrue (M.graph.field ha "required"),
          M.graph.asText (M.graph.field ha "description")]

theorem Response.resolve_mirror (status : String) (h : R v v') :
    resolve sc' mediaType status v' = resolve sc mediaType status v := by
  unfold resolve
  rcases followToMap_mirror M "response" h with ⟨p, hp, hp'⟩ | ⟨es, es', he, he', ha⟩
  · simp only [hp, hp', bind, Except.bind]
  · have hc := M.graph.field ha "content"
    simp only [he, he', bind, Except.bind, M.graph.asText (M.graph.field ha "description")]
    rcases mediaSchema?_mirror M.graph hc mediaType with ⟨hn, hn'⟩ | ⟨w, w', hw, hw', hr⟩
    · simp only [hn, hn']
    · simp only [hw, hw', Schema.typeOf_mirror M.graph hr]

theorem Response.resolveAll_mirror (h : R v v') :
    resolveAll sc' mediaType subject v' = resolveAll sc mediaType subject v := by
  have hv := M.graph.view h
  have hkind := M.graph.kindName_view h
  have hentry : ∀ e e' : Scalar × Value, e'.1 = e.1 ∧ R e.2 e'.2 →
      entry sc' mediaType subject e' = entry sc mediaType subject e := by
    rintro e e' ⟨hk, hr⟩
    simp only [entry, hk, resolve_mirror M _ hr, Schema.typeOf_mirror M.graph hr]
  unfold resolveAll
  generalize sc.graph.view v = a, sc'.graph.view v' = a' at hv hkind
  cases hv with
  | map hes => simp only [each_eq (hes.imp hentry)]
  | scalar s => cases s <;> simp only [hkind]
  | _ => simp only [hkind]

namespace Endpoint

variable {path : String} {m : Method} {operation operation' : Value}

theorem resolve_mirror (ho : R operation operation') (hs : R shared shared') :
    resolve sc' mediaType path m operation' shared' =
      resolve sc mediaType path m operation shared := by
  unfold resolve
  rcases M.graph.entries?_cases ho with ⟨he, he'⟩ | ⟨es, es', he, he', ha⟩
  · rw [he, he', M.graph.kindName ho]
  · have field := fun name => M.graph.field ha name
    simp only [he, he', Parameter.resolveAll_mirror M hs (field "parameters"),
      RequestBody.resolveOrNote, RequestBody.resolve_mirror M (field "requestBody"),
      Response.resolveAll_mirror M (field "responses"), M.graph.str? (field "operationId"),
      M.graph.asText (field "summary"), M.graph.asText (field "description"),
      tagsOf_mirror M.graph (field "tags"), M.graph.isTrue (field "deprecated")]

theorem itemEntry_mirror {o o' : Scalar × Value} (hk : o'.1 = o.1) (ho : R o.2 o'.2)
    (hs : R shared shared') :
    itemEntry sc' mediaType path shared' o' = itemEntry sc mediaType path shared o := by
  simp only [itemEntry, hk, resolve_mirror M ho hs]

theorem pathEntry_mirror {e e' : Scalar × Value} (hk : e'.1 = e.1) (h : R e.2 e'.2) :
    pathEntry sc' mediaType e' = pathEntry sc mediaType e := by
  have hf := M.follow h
  unfold pathEntry
  rw [hk]
  generalize sc.follow e.2 = r, sc'.follow e'.2 = r' at hf
  cases hf with
  | error x => rfl
  | @ok w w' hw =>
    dsimp only
    rcases M.graph.entries?_cases hw with ⟨he, he'⟩ | ⟨es, es', he, he', ha⟩
    · rw [he, he', M.graph.kindName hw]
    · rw [he, he']
      have hp := M.graph.field ha "parameters"
      refine congrArg (showing e.1.limit?) (gather_eq (ha.imp ?_))
      intro o o' ho
      exact itemEntry_mirror M ho.1 ho.2 hp

end Endpoint

end Operations

end OpenApiIR
