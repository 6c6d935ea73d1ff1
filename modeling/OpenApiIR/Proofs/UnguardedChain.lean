import OpenApiIR.Failure
import OpenApiIR.Proofs.Chain
import OpenApiIR.Proofs.Navigation

/-! Chains of references without a guard, hop by hop. A chain ends at a value that is no reference,
breaks at one that leads nowhere, or goes on forever; the guard speaks up in the last case and in no
other. -/

namespace OpenApiIR

namespace Pointer

variable {g : Graph} {ref : String} {v : Value} {e : RefError}

theorem step_not_circular {segment : List Char} (h : step g ref v segment = .error e)
    (text : String) :
    e ≠ .circular text := by
  unfold step at h
  split at h
  · split at h
    · cases h
    · obtain rfl := Except.error.inj h
      simp
  · rcases itemAt_eq_error h with rfl | ⟨l, _, rfl⟩ <;> simp
  · obtain rfl := Except.error.inj h
    simp

theorem steps_not_circular {segments : List (List Char)}
    (h : segments.foldlM (fun v s => step g ref v (unescape s)) v = .error e) (text : String) :
    e ≠ .circular text := by
  induction segments generalizing v with
  | nil => cases h
  | cons s rest ih =>
    rw [List.foldlM_cons] at h
    cases hs : step g ref v (unescape s) with
    | error e' =>
      rw [hs] at h
      obtain rfl := Except.error.inj h
      exact step_not_circular hs text
    | ok u =>
      rw [hs] at h
      exact ih h

/-- A pointer is refused for what it meets, never for where it was met before. -/
theorem resolve_not_circular {root : Value} (h : resolve g root ref = .error e) (text : String) :
    e ≠ .circular text := by
  unfold resolve at h
  split at h
  · obtain rfl := Except.error.inj h
    simp
  · exact steps_not_circular h text

end Pointer

namespace Scope

inductive Hop (sc : Scope) (v w : Value) : Prop where
  | intro {text : String} {root : Value} : sc.refOf? v = some (.str text) → sc.root = some root →
      Pointer.resolve sc.graph root text = .ok w → Hop sc v w

inductive Hops (sc : Scope) : Nat → Value → Value → Prop where
  | nil (v : Value) : Hops sc 0 v v
  | cons {n : Nat} {u v w : Value} : sc.Hop u v → Hops sc n v w → Hops sc (n + 1) u w

/-- A map whose `$ref` leads nowhere, and why. -/
inductive BadHop (sc : Scope) (v : Value) : RefError → Prop where
  | notText {ref : Value} : sc.refOf? v = some ref → (∀ text, ref ≠ .str text) →
      BadHop sc v (.notText (sc.graph.kindName ref))
  | noDocument {text : String} : sc.refOf? v = some (.str text) → sc.root = none →
      BadHop sc v (.noDocument text)
  | broken {text : String} {root : Value} {e : RefError} : sc.refOf? v = some (.str text) →
      sc.root = some root → Pointer.resolve sc.graph root text = .error e → BadHop sc v e

/-- A value that a chain does not go on from. -/
inductive Stop (sc : Scope) (v : Value) : Except RefError Value → Prop where
  | plain : sc.refOf? v = none → Stop sc v (.ok v)
  | bad {e : RefError} : sc.BadHop v e → Stop sc v (.error e)

def Endless (sc : Scope) (v : Value) : Prop := ∀ n, ∃ w, sc.Hops n v w

inductive Comes (sc : Scope) (v : Value) : Except RefError Value → Prop where
  | stops {n : Nat} {w : Value} {r : Except RefError Value} : sc.Hops n v w → sc.Stop w r →
      Comes sc v r
  | circles {text : String} : sc.Endless v → Comes sc v (.error (.circular text))

variable {sc : Scope} {u v w w' : Value} {n m : Nat} {e e' : RefError}
  {r r' : Except RefError Value}

theorem Hop.unique (h : sc.Hop v w) (h' : sc.Hop v w') : w = w' := by
  cases h with
  | intro hr hroot hp =>
    cases h' with
    | intro hr' hroot' hp' => simp_all

theorem Stop.unique (h : sc.Stop v r) (h' : sc.Stop v r') : r = r' := by
  cases h with
  | plain hn =>
    cases h' with
    | plain _ => rfl
    | bad hb => cases hb <;> simp_all
  | bad hb =>
    cases h' with
    | plain hn => cases hb <;> simp_all
    | bad hb' => cases hb <;> cases hb' <;> grind

theorem Stop.not_hop (h : sc.Stop v r) : ¬ sc.Hop v w := by
  rintro ⟨hr, hroot, hp⟩
  cases h with
  | plain hn => simp_all
  | bad hb => cases hb <;> simp_all

theorem Stop.not_circular (h : sc.Stop v r) (text : String) : r ≠ .error (.circular text) := by
  cases h with
  | plain _ => simp
  | bad hb =>
    cases hb with
    | notText _ _ => simp
    | noDocument _ _ => simp
    | broken _ _ hp => simpa using Pointer.resolve_not_circular hp text

theorem Hops.unique (h : sc.Hops n v w) (h' : sc.Hops n v w') : w = w' := by
  induction h with
  | nil v =>
    cases h' with
    | nil => rfl
  | cons hh _ ih =>
    cases h' with
    | cons hh' h' =>
      obtain rfl := hh.unique hh'
      exact ih h'

theorem Hops.snoc (h : sc.Hops n v w) (hh : sc.Hop w w') : sc.Hops (n + 1) v w' := by
  induction h with
  | nil v => exact .cons hh (.nil w')
  | cons hh' _ ih => exact .cons hh' (ih hh)

theorem Hops.append (h : sc.Hops n v w) (h' : sc.Hops m w u) : sc.Hops (n + m) v u := by
  induction h with
  | nil v => rwa [Nat.zero_add]
  | cons hh _ ih =>
    rw [Nat.add_right_comm]
    exact .cons hh (ih h')

theorem Hops.start_of_le (h : sc.Hops n v w) (hm : m ≤ n) : ∃ u, sc.Hops m v u := by
  induction h generalizing m with
  | nil v =>
    obtain rfl := Nat.le_zero.mp hm
    exact ⟨v, .nil v⟩
  | @cons n u v w hh _ ih =>
    cases m with
    | zero => exact ⟨u, .nil u⟩
    | succ m =>
      obtain ⟨x, hx⟩ := ih (Nat.le_of_succ_le_succ hm)
      exact ⟨x, .cons hh hx⟩

/-- A chain is not longer than up to where it stops. -/
theorem Hops.le_of_stop (h : sc.Hops n v w) (hw : sc.Stop w r) (h' : sc.Hops m v u) : m ≤ n := by
  induction h generalizing m with
  | nil v =>
    cases h' with
    | nil => exact Nat.le_refl 0
    | cons hh _ => exact absurd hh hw.not_hop
  | cons hh _ ih =>
    cases h' with
    | nil => exact Nat.zero_le _
    | cons hh' h' =>
      obtain rfl := hh.unique hh'
      exact Nat.succ_le_succ (ih hw h')

theorem Hops.not_endless (h : sc.Hops n v w) (hw : sc.Stop w r) : ¬ sc.Endless v := by
  intro he
  obtain ⟨u, hu⟩ := he (n + 1)
  exact absurd (h.le_of_stop hw hu) (Nat.not_succ_le_self n)

theorem Hops.stop_unique (h : sc.Hops n v w) (hw : sc.Stop w r) (h' : sc.Hops m v w')
    (hw' : sc.Stop w' r') : r = r' := by
  obtain rfl := Nat.le_antisymm (h'.le_of_stop hw' h) (h.le_of_stop hw h')
  obtain rfl := h.unique h'
  exact hw.unique hw'

/-- A chain that comes back to where it was goes around any number of times. -/
theorem Hops.endless (h : sc.Hops (n + 1) v v) : sc.Endless v := by
  have around : ∀ k, sc.Hops (k * (n + 1)) v v := by
    intro k
    induction k with
    | zero => exact (Nat.zero_mul (n + 1)).symm ▸ .nil v
    | succ k ih =>
      rw [Nat.succ_mul]
      exact ih.append h
  intro k
  exact (around k).start_of_le (Nat.le_mul_of_pos_right k (Nat.succ_pos n))

theorem Hop.endless (h : sc.Hop v w) (hw : sc.Endless w) : sc.Endless v := by
  intro n
  cases n with
  | zero => exact ⟨v, .nil v⟩
  | succ n =>
    obtain ⟨u, hu⟩ := hw n
    exact ⟨u, .cons h hu⟩

theorem Comes.hop (h : sc.Hop v w) (hr : sc.Comes w r) : sc.Comes v r := by
  cases hr with
  | stops hh hs => exact .stops (.cons h hh) hs
  | circles he => exact .circles (h.endless he)

/-! With the guard: what was seen was followed on the way, so a text that comes back closes a
circle. -/

def Trail (sc : Scope) (seen : List String) (v : Value) : Prop :=
  ∀ text ∈ seen, ∃ root u n, sc.root = some root ∧
    Pointer.resolve sc.graph root text = .ok u ∧ sc.Hops n u v

theorem Trail.hop {seen : List String} {text : String} {root : Value} (h : sc.Trail seen v)
    (hr : sc.refOf? v = some (.str text)) (hroot : sc.root = some root)
    (hp : Pointer.resolve sc.graph root text = .ok w) : sc.Trail (text :: seen) w := by
  intro t ht
  rcases List.mem_cons.mp ht with rfl | ht
  · exact ⟨root, w, 0, hroot, hp, .nil w⟩
  · obtain ⟨root', u, n, hroot', hp', hh⟩ := h t ht
    exact ⟨root', u, n + 1, hroot', hp', hh.snoc ⟨hr, hroot, hp⟩⟩

theorem Trail.endless {seen : List String} {text : String} (h : sc.Trail seen v)
    (hr : sc.refOf? v = some (.str text)) (hm : text ∈ seen) : sc.Endless v := by
  obtain ⟨root, u, n, hroot, hp, hh⟩ := h text hm
  exact Hops.endless (.cons ⟨hr, hroot, hp⟩ hh)

theorem badHop_of_start {ref : Value} (hr : sc.refOf? v = some ref) (hs : sc.start ref = .error e) :
    sc.BadHop v e := by
  unfold start at hs
  split at hs
  · split at hs
    · rename_i hroot
      obtain rfl := Except.error.inj hs
      exact .noDocument hr hroot
    · cases hs
  · rename_i hnot
    obtain rfl := Except.error.inj hs
    exact .notText hr hnot

theorem Leads.comes {seen : List String} (h : sc.Leads seen v r) (ht : sc.Trail seen v) :
    sc.Comes v r := by
  induction h with
  | done hn => exact .stops (.nil _) (.plain hn)
  | refused hr hs => exact .stops (.nil _) (.bad (badHop_of_start hr hs))
  | circular hr hs hm =>
    obtain ⟨rfl, _⟩ := start_ok hs
    exact .circles (ht.endless hr hm)
  | broken hr hs _ hp =>
    obtain ⟨rfl, hroot⟩ := start_ok hs
    exact .stops (.nil _) (.bad (.broken hr hroot hp))
  | hop hr hs _ hp _ ih =>
    obtain ⟨rfl, hroot⟩ := start_ok hs
    exact .hop ⟨hr, hroot, hp⟩ (ih (ht.hop hr hroot hp))

theorem follow_comes (sc : Scope) (v : Value) : sc.Comes v (sc.follow v) :=
  (sc.follow_leads v).comes nofun

theorem follow_stop_iff : (∃ n w, sc.Hops n v w ∧ sc.Stop w r) ↔
    sc.follow v = r ∧ ∀ text, r ≠ .error (.circular text) := by
  have hcomes := sc.follow_comes v
  constructor
  · rintro ⟨n, w, hh, hs⟩
    refine ⟨?_, hs.not_circular⟩
    generalize sc.follow v = r' at hcomes
    cases hcomes with
    | stops hh' hs' => exact hh'.stop_unique hs' hh hs
    | circles he => exact absurd he (hh.not_endless hs)
  · rintro ⟨rfl, hnot⟩
    generalize sc.follow v = r at *
    cases hcomes with
    | stops hh hs => exact ⟨_, _, hh, hs⟩
    | circles _ => exact absurd rfl (hnot _)

theorem follow_circular_iff : (∃ text, sc.follow v = .error (.circular text)) ↔ sc.Endless v := by
  have hcomes := sc.follow_comes v
  constructor
  · rintro ⟨text, h⟩
    rw [h] at hcomes
    cases hcomes with
    | stops _ hs => exact absurd rfl (hs.not_circular text)
    | circles he => exact he
  · intro he
    generalize sc.follow v = r at hcomes
    cases hcomes with
    | stops hh hs => exact absurd he (hh.not_endless hs)
    | circles _ => exact ⟨_, rfl⟩

theorem follow_ok_iff : sc.follow v = .ok w ↔ ∃ n, sc.Hops n v w ∧ sc.refOf? w = none := by
  constructor
  · intro h
    obtain ⟨n, u, hh, hs⟩ := follow_stop_iff.mpr ⟨h, by simp⟩
    cases hs with
    | plain hn => exact ⟨n, hh, hn⟩
  · rintro ⟨n, hh, hn⟩
    exact (follow_stop_iff.mp ⟨n, w, hh, .plain hn⟩).1

theorem follow_broken_iff : (sc.follow v = .error e ∧ ∀ text, e ≠ .circular text) ↔
    ∃ n w, sc.Hops n v w ∧ sc.BadHop w e := by
  constructor
  · rintro ⟨h, hnot⟩
    obtain ⟨n, w, hh, hs⟩ := follow_stop_iff.mpr ⟨h, by simpa using hnot⟩
    cases hs with
    | bad hb => exact ⟨n, w, hh, hb⟩
  · rintro ⟨n, w, hh, hb⟩
    obtain ⟨h, hnot⟩ := follow_stop_iff.mp ⟨n, w, hh, .bad hb⟩
    exact ⟨h, by simpa using hnot⟩

theorem follow_limit_iff {l : Limit} : sc.follow v = .error (.limit l) ↔
    ∃ n w text root, sc.Hops n v w ∧ sc.refOf? w = some (.str text) ∧ sc.root = some root ∧
      Pointer.resolve sc.graph root text = .error (.limit l) := by
  constructor
  · intro h
    obtain ⟨n, w, hh, hb⟩ := follow_broken_iff.mp ⟨h, by simp⟩
    cases hb with
    | broken hr hroot hp => exact ⟨n, w, _, _, hh, hr, hroot, hp⟩
  · rintro ⟨n, w, text, root, hh, hr, hroot, hp⟩
    exact (follow_broken_iff.mpr ⟨n, w, hh, .broken hr hroot hp⟩).1

/-- A chain comes to a value exactly by its hops, is refused as circular exactly when they never
end, and for any other reason exactly where they break. Such a reason is one of references, unless a
pointer on the way meets a limit. What a chain comes to stands for itself. -/
theorem follow_exact (sc : Scope) (v : Value) :
    (∀ w, sc.follow v = .ok w ↔ ∃ n, sc.Hops n v w ∧ sc.refOf? w = none) ∧
    ((∃ text, sc.follow v = .error (.circular text)) ↔ sc.Endless v) ∧
    (∀ e, (sc.follow v = .error e ∧ ∀ text, e ≠ .circular text) ↔
      ∃ n w, sc.Hops n v w ∧ sc.BadHop w e) ∧
    (∀ e, sc.follow v = .error e → (e.isResolution = false ↔ ∃ n w text root l, e = .limit l ∧
      sc.Hops n v w ∧ sc.refOf? w = some (.str text) ∧ sc.root = some root ∧
      Pointer.resolve sc.graph root text = .error (.limit l))) ∧
    ∀ w, sc.follow v = .ok w → sc.follow w = .ok w := by
  refine ⟨fun w => follow_ok_iff, follow_circular_iff, fun e => follow_broken_iff, ?_, ?_⟩
  · intro e h
    constructor
    · intro he
      obtain ⟨l, rfl⟩ : ∃ l, e = .limit l := by
        cases e with
        | limit l => exact ⟨l, rfl⟩
        | _ => cases he
      obtain ⟨n, w, text, root, hlimit⟩ := follow_limit_iff.mp h
      exact ⟨n, w, text, root, l, rfl, hlimit⟩
    · rintro ⟨_, _, _, _, l, rfl, -⟩
      rfl
  · intro w h
    obtain ⟨_, _, hn⟩ := follow_ok_iff.mp h
    exact follow_ok_iff.mpr ⟨0, .nil w, hn⟩

def refTo (path : String) : Value := .map [(.str "$ref", .str path)]

/-- A way to a goal, a way around in a circle that is entered from outside, and a way to nowhere. -/
def roundabout : Scope where
  root := some (.map [
    (.str "way", refTo "#/goal"), (.str "goal", .map [(.str "name", .str "limit")]),
    (.str "tail", refTo "#/left"), (.str "left", refTo "#/right"), (.str "right", refTo "#/left"),
    (.str "lost", refTo "#/nowhere")])
  graph := .empty

/-- The chain goes on forever only where the circle is entered. -/
theorem roundabout_followed :
    (roundabout.follow (refTo "#/way") = .ok (.map [(.str "name", .str "limit")]) ∧
      ∃ n, roundabout.Hops n (refTo "#/way") (.map [(.str "name", .str "limit")])) ∧
    (roundabout.follow (refTo "#/tail") = .error (.circular "#/left") ∧
      roundabout.Endless (refTo "#/tail")) ∧
    (roundabout.follow (refTo "#/lost") = .error (.missingKey "#/nowhere" "nowhere") ∧
      ∃ n w, roundabout.Hops n (refTo "#/lost") w ∧
        roundabout.BadHop w (.missingKey "#/nowhere" "nowhere")) ∧
    roundabout.follow (.map [(.str "name", .str "limit")]) =
      .ok (.map [(.str "name", .str "limit")]) := by
  have hway : roundabout.follow (refTo "#/way") = .ok (.map [(.str "name", .str "limit")]) := by
    decide +kernel
  have htail : roundabout.follow (refTo "#/tail") = .error (.circular "#/left") := by
    decide +kernel
  have hlost : roundabout.follow (refTo "#/lost") =
      .error (.missingKey "#/nowhere" "nowhere") := by
    decide +kernel
  obtain ⟨hok, _, _, _, hagain⟩ := follow_exact roundabout (refTo "#/way")
  obtain ⟨_, hendless, _⟩ := follow_exact roundabout (refTo "#/tail")
  obtain ⟨_, _, hbroken, _⟩ := follow_exact roundabout (refTo "#/lost")
  obtain ⟨n, hh, _⟩ := (hok _).mp hway
  exact ⟨⟨hway, n, hh⟩, ⟨htail, hendless.mp ⟨_, htail⟩⟩,
    ⟨hlost, (hbroken _).mp ⟨hlost, by simp⟩⟩, hagain _ hway⟩

/-- A hop by an index that is too long to be read breaks the chain, and not as a reference that
leads nowhere does. -/
theorem long_index_not_refused :
    let sc : Scope := ⟨some Pointer.listRoot, .empty⟩
    sc.refOf? (refTo Pointer.ninesReference) = some (.str Pointer.ninesReference) ∧
    sc.follow (refTo Pointer.ninesReference) = .error (.limit (.read (Limit.digits + 1))) ∧
    RefError.isResolution (.limit (.read (Limit.digits + 1))) = false :=
  ⟨rfl, follow_broken rfl rfl (Pointer.resolve_nines rfl rfl rfl), rfl⟩

end Scope

end OpenApiIR
