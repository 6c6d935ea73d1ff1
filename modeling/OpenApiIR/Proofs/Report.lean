import Mathlib.Data.List.Forall2
import Mathlib.Data.List.TakeWhile
import OpenApiIR.Diagnostic.Report

/-! Reasoning about results with a trace. What holds of a result and of each diagnostic beside it is
carried through every way of putting reports together, so that a resolver is judged by its leaves.
The same goes for two resolutions side by side, and for the order in which diagnostics and their log
records arise. -/

namespace OpenApiIR

namespace Trace

variable {t : Trace}

theorem isNone_limit? (h : t.halt? = none) : ∀ e ∈ t.events, e.limit?.isNone = true := fun e he =>
  Option.isNone_iff_eq_none.mpr (List.findSome?_eq_none_iff.mp h e he)

theorem reached_append (h : t.halt? = none) (t' : Trace) : (t ++ t').reached = t ++ t'.reached :=
  congrArg Trace.mk (List.takeWhile_append_of_pos (isNone_limit? h))

theorem reached_append_of_halt {l : Limit} (h : t.halt? = some l) (t' : Trace) :
    (t ++ t').reached = t.reached := by
  obtain ⟨before, e, after, hsplit, he, hbefore⟩ := List.findSome?_eq_some_iff.mp h
  have hgo : ∀ rest, (before ++ e :: rest).takeWhile (·.limit?.isNone) = before := by
    intro rest
    rw [List.takeWhile_append_of_pos fun x hx => by simp [hbefore x hx],
      List.takeWhile_cons_of_neg (by simp [he]), List.append_nil]
  have hall : (t ++ t').events = before ++ e :: (after ++ t'.events) := by
    rw [events_append, hsplit, List.append_assoc, List.cons_append]
  exact congrArg Trace.mk (by rw [hall, hsplit, hgo, hgo])

theorem halt?_reached (t : Trace) : t.reached.halt? = none := by
  refine List.findSome?_eq_none_iff.mpr fun e he => ?_
  have hnone := List.mem_takeWhile_imp (p := fun e : Event => e.limit?.isNone) he
  exact Option.isNone_iff_eq_none.mp hnone

theorem diagnostics_reached_sublist (t : Trace) :
    t.reached.diagnostics.Sublist t.diagnostics :=
  (List.takeWhile_sublist _).filterMap _

end Trace

namespace Report

variable {α β : Type}

theorem refusing_resolution {k : EntryKind} {s : String} {e : RefError} {a : α}
    (h : e.isResolution = true) : refusing k s e a = noting k s (.ref e) a := by
  cases e with
  | limit l => cases h
  | _ => rfl

theorem guarded_of_none {r : Report α} (h : r.trace.halt? = none) (k : EntryKind) (s : String) :
    r.guarded k s = r.map ([·]) := by
  unfold guarded
  rw [h]
  rfl

theorem guarded_of_some {r : Report α} {l : Limit} (h : r.trace.halt? = some l) (k : EntryKind)
    (s : String) :
    r.guarded k s = ⟨[], r.trace.reached ++ (noting k s (.limit l) ()).trace⟩ := by
  unfold guarded
  rw [h]

theorem guarded_map (f : α → β) (r : Report α) (k : EntryKind) (s : String) :
    (r.map f).guarded k s = (r.guarded k s).map (List.map f) := by
  cases h : r.trace.halt? with
  | none =>
    have hf : (r.map f).trace.halt? = none := h
    rw [guarded_of_none h, guarded_of_none hf]
    rfl
  | some l =>
    have hf : (r.map f).trace.halt? = some l := h
    rw [guarded_of_some h, guarded_of_some hf]
    rfl

@[simp] theorem halt?_guarded (r : Report α) (k : EntryKind) (s : String) :
    (r.guarded k s).trace.halt? = none := by
  cases h : r.trace.halt? with
  | none => rw [guarded_of_none h, trace_map, h]
  | some l => simp [guarded_of_some h, Trace.halt?_reached]

/-! Whether a report halts is told by its leaves. -/

def Halts (r : Report α) : Prop := ∃ l, r.trace.halt? = some l

theorem not_halts_iff {r : Report α} : ¬ Halts r ↔ r.trace.halt? = none := by
  unfold Halts
  cases r.trace.halt? <;> simp

@[simp] theorem not_halts_silent (a : α) : ¬ Halts (silent a) := by simp [not_halts_iff]

@[simp] theorem not_halts_pure (a : α) : ¬ Halts (pure a) := by simp [not_halts_iff]

@[simp] theorem not_halts_noting (k : EntryKind) (s : String) (p : Problem) (a : α) :
    ¬ Halts (noting k s p a) := by simp [not_halts_iff]

@[simp] theorem halts_halting (l : Limit) (a : α) : Halts (halting l a) := ⟨l, rfl⟩

@[simp] theorem not_halts_guarded (r : Report α) (k : EntryKind) (s : String) :
    ¬ Halts (r.guarded k s) := by simp [not_halts_iff]

@[simp] theorem halts_map (f : α → β) (r : Report α) : Halts (r.map f) ↔ Halts r := Iff.rfl

@[simp] theorem halts_refusing {k : EntryKind} {s : String} {e : RefError} {a : α} :
    Halts (refusing k s e a) ↔ ∃ l, e = .limit l := by
  cases e <;> simp [refusing]

@[simp] theorem halts_showing {l? : Option Limit} {r : Report α} :
    Halts (showing l? r) ↔ (∃ l, l? = some l) ∨ Halts r := by
  unfold Halts
  rw [halt?_showing]
  cases l? <;> simp

@[simp] theorem halts_bind {r : Report α} {f : α → Report β} :
    Halts (r >>= f) ↔ Halts r ∨ Halts (f r.value) := by
  unfold Halts
  rw [trace_bind, Trace.halt?_append]
  cases r.trace.halt? <;> simp

@[simp] theorem halts_each {f : α → Report β} {xs : List α} :
    Halts (each f xs) ↔ ∃ x ∈ xs, Halts (f x) := by
  unfold Halts
  rw [halt?_each, ← Option.isSome_iff_exists, List.findSome?_isSome_iff]
  simp only [Option.isSome_iff_exists]

@[simp] theorem halts_gather {f : α → Report (List β)} {xs : List α} :
    Halts (gather f xs) ↔ ∃ x ∈ xs, Halts (f x) := halts_each

/-- What is reached of a list of entries: those without a halt, and the first with one up to there.
-/
theorem reached_each {f : α → Report β} {before : List α} {x : α} {l : Limit}
    (hbefore : ∀ y ∈ before, (f y).trace.halt? = none) (h : (f x).trace.halt? = some l)
    (after : List α) :
    (each f (before ++ x :: after)).trace.reached =
      (each f before).trace ++ (f x).trace.reached := by
  have hnone : (each f before).trace.halt? = none := by
    rw [halt?_each]
    exact List.findSome?_eq_none_iff.mpr hbefore
  have hsplit : (each f (before ++ x :: after)).trace =
      (each f before).trace ++ ((f x).trace ++ (each f after).trace) := by
    ext1
    simp
  rw [hsplit, Trace.reached_append hnone, Trace.reached_append_of_halt h]

/-- A result with `P`, and beside it only diagnostics with `Q`. -/
structure Ensures (P : α → Prop) (Q : Diagnostic → Prop) (r : Report α) : Prop where
  value : P r.value
  diagnostics : ∀ d ∈ r.trace.diagnostics, Q d

theorem map_eq_of_forall₂ {γ δ : Type} {f : α → δ} {f' : γ → δ} {xs : List α} {ys : List γ}
    (h : List.Forall₂ (fun x y => f' y = f x) xs ys) : ys.map f' = xs.map f := by
  induction h with
  | nil => rfl
  | cons hd _ ih => rw [List.map_cons, List.map_cons, hd, ih]

/-- Only what each entry contributes counts. -/
theorem each_eq {γ : Type} {f : α → Report β} {f' : γ → Report β} {xs : List α} {ys : List γ}
    (h : List.Forall₂ (fun x y => f' y = f x) xs ys) : each f' ys = each f xs := by
  have hr := map_eq_of_forall₂ h
  have hv := congrArg (List.map fun r => r.value) hr
  have ht := congrArg (List.map fun r => r.trace) hr
  simp only [List.map_map, Function.comp_def] at hv ht
  simp only [each, hv, ht]

theorem gather_eq {γ : Type} {f : α → Report (List β)} {f' : γ → Report (List β)} {xs : List α}
    {ys : List γ} (h : List.Forall₂ (fun x y => f' y = f x) xs ys) :
    gather f' ys = gather f xs := by
  simp only [gather, each_eq h]

theorem eq_of_parts {r r' : Report α} (hv : r.value = r'.value)
    (he : r.trace.events = r'.trace.events) : r = r' := by
  obtain ⟨_, _⟩ := r
  obtain ⟨_, _⟩ := r'
  cases hv
  exact congrArg _ (congrArg Trace.mk he)

/-- An entry that is itself made of entries may be replaced by them. -/
theorem gather_flat {γ : Type} {f : α → Report (List β)} {part : γ → Report (List β)} {x : α}
    {inner : List γ} (h : f x = gather part inner) (before after : List α) :
    gather f (before ++ x :: after) =
      gather id (before.map f ++ inner.map part ++ after.map f) := by
  apply eq_of_parts
  · simp [h, List.flatMap_map]
  · simp [h, List.flatMap_map]

variable {P : α → Prop} {Q : Diagnostic → Prop} {R : β → Prop}

theorem ensures_halting {l : Limit} {a : α} (h : P a) : Ensures P Q (halting l a) :=
  ⟨h, fun _ hd => absurd hd (by simp)⟩

theorem Ensures.showing {r : Report α} (h : Ensures P Q r) (l? : Option Limit) :
    Ensures P Q (showing l? r) := by
  constructor
  · rw [value_showing]
    exact h.value
  · rw [diagnostics_showing]
    exact h.diagnostics

theorem Ensures.guarded {r : Report α} {k : EntryKind} {s : String} (h : Ensures P Q r)
    (hd : ∀ l, Q ⟨k, s, .limit l⟩) : Ensures (fun bs => ∀ b ∈ bs, P b) Q (r.guarded k s) := by
  cases hl : r.trace.halt? with
  | none =>
    rw [guarded_of_none hl]
    exact ⟨fun b hb => by rw [List.mem_singleton.mp hb]; exact h.value, h.diagnostics⟩
  | some l =>
    rw [guarded_of_some hl]
    refine ⟨fun _ hb => absurd hb List.not_mem_nil, fun d hm => ?_⟩
    rw [Trace.diagnostics_append, List.mem_append] at hm
    rcases hm with hm | hm
    · exact h.diagnostics d (r.trace.diagnostics_reached_sublist.subset hm)
    · rw [List.mem_singleton.mp hm]
      exact hd l

theorem ensures_silent {a : α} (h : P a) : Ensures P Q (silent a) :=
  ⟨h, fun _ hd => absurd hd (by simp)⟩

theorem ensures_noting {k : EntryKind} {s : String} {p : Problem} {a : α} (h : P a)
    (hd : Q ⟨k, s, p⟩) : Ensures P Q (noting k s p a) :=
  ⟨h, fun d hm => by rw [List.mem_singleton.mp hm]; exact hd⟩

theorem ensures_refusing {k : EntryKind} {s : String} {e : RefError} {a : α} (h : P a)
    (hd : Q ⟨k, s, .ref e⟩) : Ensures P Q (refusing k s e a) := by
  cases e with
  | limit l => exact ensures_halting h
  | _ => exact ensures_noting h hd

theorem Ensures.weaken {Q' : Diagnostic → Prop} {P' : α → Prop} {r : Report α} (h : Ensures P Q r)
    (hp : ∀ a, P a → P' a) (hq : ∀ d, Q d → Q' d) : Ensures P' Q' r :=
  ⟨hp _ h.value, fun d hd => hq d (h.diagnostics d hd)⟩

theorem Ensures.map {f : α → β} {r : Report α} (h : Ensures P Q r) (hf : ∀ a, P a → R (f a)) :
    Ensures R Q (r.map f) := ⟨hf _ h.value, h.diagnostics⟩

theorem Ensures.bind {r : Report α} {f : α → Report β} (h : Ensures P Q r)
    (hf : ∀ a, P a → Ensures R Q (f a)) : Ensures R Q (r >>= f) := by
  have hv := hf _ h.value
  refine ⟨hv.value, fun d hd => ?_⟩
  rw [trace_bind, Trace.diagnostics_append] at hd
  rcases List.mem_append.mp hd with hd | hd
  · exact h.diagnostics d hd
  · exact hv.diagnostics d hd

theorem ensures_each {f : α → Report β} {xs : List α} (h : ∀ x ∈ xs, Ensures R Q (f x)) :
    Ensures (fun bs => ∀ b ∈ bs, R b) Q (each f xs) := by
  constructor
  · intro b hb
    obtain ⟨x, hx, rfl⟩ := List.mem_map.mp hb
    exact (h x hx).value
  · intro d hd
    rw [diagnostics_each] at hd
    obtain ⟨x, hx, hd⟩ := List.mem_flatMap.mp hd
    exact (h x hx).diagnostics d hd

theorem ensures_gather {f : α → Report (List β)} {xs : List α}
    (h : ∀ x ∈ xs, Ensures (fun bs => ∀ b ∈ bs, R b) Q (f x)) :
    Ensures (fun bs => ∀ b ∈ bs, R b) Q (gather f xs) := by
  refine (ensures_each h).map fun bss hb b hm => ?_
  obtain ⟨bs, hbs, hm⟩ := List.mem_flatten.mp hm
  exact hb bs hbs b hm

/-! Two reports side by side. -/

variable {γ δ : Type}

structure Paired (P : α → γ → Prop) (r : Report α) (r' : Report γ) : Prop where
  value : P r.value r'.value
  trace : r'.trace = r.trace

variable {S : α → γ → Prop} {T : β → δ → Prop}

theorem Paired.eq {r r' : Report α} (h : Paired Eq r r') : r' = r :=
  eq_of_parts h.value.symm (congrArg Trace.events h.trace)

theorem paired_silent {a : α} {c : γ} (h : S a c) : Paired S (silent a) (silent c) := ⟨h, rfl⟩

theorem paired_noting {k : EntryKind} {s : String} {p : Problem} {a : α} {c : γ} (h : S a c) :
    Paired S (noting k s p a) (noting k s p c) := ⟨h, rfl⟩

theorem paired_refusing {k : EntryKind} {s : String} {e : RefError} {a : α} {c : γ} (h : S a c) :
    Paired S (refusing k s e a) (refusing k s e c) := by
  cases e <;> exact ⟨h, rfl⟩

theorem Paired.showing {r : Report α} {r' : Report γ} (h : Paired S r r') (l? : Option Limit) :
    Paired S (showing l? r) (showing l? r') := by
  cases l? with
  | none => exact h
  | some l => exact ⟨h.value, congrArg (fun t : Trace => Trace.mk (.halted l :: t.events)) h.trace⟩

theorem Paired.guarded {r : Report α} {r' : Report γ} (h : Paired S r r') (k : EntryKind)
    (s : String) : Paired (List.Forall₂ S) (r.guarded k s) (r'.guarded k s) := by
  cases hl : r.trace.halt? with
  | none =>
    rw [guarded_of_none hl, guarded_of_none (h.trace ▸ hl)]
    exact ⟨.cons h.value .nil, h.trace⟩
  | some l =>
    rw [guarded_of_some hl, guarded_of_some (h.trace ▸ hl), h.trace]
    exact ⟨.nil, rfl⟩

theorem Paired.map {f : α → β} {f' : γ → δ} {r : Report α} {r' : Report γ} (h : Paired S r r')
    (hf : ∀ a c, S a c → T (f a) (f' c)) : Paired T (r.map f) (r'.map f') :=
  ⟨hf _ _ h.value, h.trace⟩

theorem Paired.bind {f : α → Report β} {f' : γ → Report δ} {r : Report α} {r' : Report γ}
    (h : Paired S r r') (hf : ∀ a c, S a c → Paired T (f a) (f' c)) :
    Paired T (r >>= f) (r' >>= f') := by
  have hv := hf _ _ h.value
  refine ⟨hv.value, ?_⟩
  rw [trace_bind, trace_bind, h.trace, hv.trace]

theorem paired_each {f : α → Report β} {f' : γ → Report δ} {xs : List α} {ys : List γ}
    (h : List.Forall₂ (fun x y => Paired T (f x) (f' y)) xs ys) :
    Paired (List.Forall₂ T) (each f xs) (each f' ys) := by
  have ht : (ys.map fun y => (f' y).trace) = xs.map fun x => (f x).trace := by
    induction h with
    | nil => rfl
    | cons hd _ ih => rw [List.map_cons, List.map_cons, hd.trace, ih]
  refine ⟨?_, by simp only [each, ht]⟩
  rw [value_each, value_each, List.forall₂_map_left_iff, List.forall₂_map_right_iff]
  exact h.imp fun _ _ hd => hd.value

theorem paired_gather {f : α → Report (List β)} {f' : γ → Report (List δ)} {xs : List α}
    {ys : List γ} (h : List.Forall₂ (fun x y => Paired (List.Forall₂ T) (f x) (f' y)) xs ys) :
    Paired (List.Forall₂ T) (gather f xs) (gather f' ys) :=
  (paired_each h).map fun _ _ hs => List.rel_flatten hs

/-! What a report notes, in order. -/

/-- What happens to an entry: it is told of, or a limit is met. -/
abbrev Incident := Except Limit Diagnostic

/-- A diagnostic comes next to the log record that announces it. -/
def Incident.events : Incident → List Event
  | .ok d => [.logged (announce d), .noted d]
  | .error l => [.halted l]

/-- What is left behind a handler: the incidents up to the first limit, which is told of. -/
def handled (kind : EntryKind) (subject : String) : List Incident → List Incident
  | [] => []
  | .ok d :: rest => .ok d :: handled kind subject rest
  | .error l :: _ => [.ok ⟨kind, subject, .limit l⟩]

/-- The incidents of a report, each with its events. -/
def Notes (r : Report α) (is : List Incident) : Prop := r.trace.events = is.flatMap Incident.events

variable {is js : List Incident} {note : α → List Incident} {xs : List α} {r : Report α}

theorem Notes.diagnostics (h : Notes r is) :
    r.trace.diagnostics = is.filterMap Except.toOption := by
  unfold Trace.diagnostics
  rw [h]
  clear h
  induction is with
  | nil => rfl
  | cons i rest ih =>
    rw [List.flatMap_cons, List.filterMap_append, ih]
    cases i <;> rfl

theorem Notes.log (h : Notes r is) : r.trace.log = r.trace.diagnostics.map announce := by
  rw [h.diagnostics]
  unfold Trace.log
  rw [h]
  clear h
  induction is with
  | nil => rfl
  | cons i rest ih =>
    rw [List.flatMap_cons, List.filterMap_append, ih]
    cases i <;> rfl

/-- Without a halt the incidents are the diagnostics. -/
theorem Notes.eq_of_not_halts (h : Notes r is) (hr : ¬ Halts r) :
    is = r.trace.diagnostics.map .ok := by
  have hnone := not_halts_iff.mp hr
  rw [h.diagnostics]
  unfold Trace.halt? at hnone
  rw [h] at hnone
  clear h hr
  induction is with
  | nil => rfl
  | cons i rest ih =>
    rw [List.flatMap_cons, List.findSome?_append] at hnone
    obtain ⟨hi, hrest⟩ := Option.or_eq_none_iff.mp hnone
    cases i with
    | error l => cases hi
    | ok d => exact congrArg (Except.ok d :: ·) (ih hrest)

theorem notes_silent (a : α) : Notes (silent a) [] := rfl

theorem notes_noting (k : EntryKind) (s : String) (p : Problem) (a : α) :
    Notes (noting k s p a) [.ok ⟨k, s, p⟩] := rfl

theorem notes_halting (l : Limit) (a : α) : Notes (halting l a) [.error l] := rfl

theorem Notes.showing (h : Notes r is) (l? : Option Limit) :
    Notes (showing l? r) (l?.toList.map .error ++ is) := by
  cases l? with
  | none => exact h
  | some l => exact congrArg (Event.halted l :: ·) h

theorem Notes.map (h : Notes r is) (f : α → β) : Notes (r.map f) is := h

theorem Notes.bind {f : α → Report β} (h : Notes r is) (hf : Notes (f r.value) js) :
    Notes (r >>= f) (is ++ js) := by
  unfold Notes
  rw [trace_bind, Trace.events_append, h, hf, List.flatMap_append]

theorem notes_each {f : α → Report β} (h : ∀ x ∈ xs, Notes (f x) (note x)) :
    Notes (each f xs) (xs.flatMap note) := by
  unfold Notes
  rw [events_each, List.flatMap_assoc]
  exact List.flatMap_congr h

theorem notes_gather {f : α → Report (List β)} (h : ∀ x ∈ xs, Notes (f x) (note x)) :
    Notes (gather f xs) (xs.flatMap note) :=
  (notes_each h).map _

theorem Notes.guarded (h : Notes r is) (k : EntryKind) (s : String) :
    Notes (r.guarded k s) (handled k s is) := by
  obtain ⟨value, ⟨events⟩⟩ := r
  obtain rfl : events = is.flatMap Incident.events := h
  induction is with
  | nil => rfl
  | cons i rest ih =>
    cases i with
    | error l => rfl
    | ok d =>
      -- A diagnostic in front neither halts nor hides what comes after it.
      have hcons : ∀ es : List Event,
          (Report.guarded ⟨value, ⟨.logged (announce d) :: .noted d :: es⟩⟩ k s).trace.events =
            .logged (announce d) :: .noted d ::
              (Report.guarded ⟨value, ⟨es⟩⟩ k s).trace.events := by
        intro es
        unfold Report.guarded
        have hhalt : (Trace.mk (.logged (announce d) :: .noted d :: es)).halt? =
            (Trace.mk es).halt? := rfl
        dsimp only
        rw [hhalt]
        cases (Trace.mk es).halt? <;> rfl
      exact (hcons _).trans (congrArg (.logged (announce d) :: .noted d :: ·) ih)

end Report

end OpenApiIR
