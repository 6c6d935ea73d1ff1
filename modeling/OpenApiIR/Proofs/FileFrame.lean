import Mathlib.Data.List.Basic
import OpenApiIR.Proofs.Showing

/-! Frames of files. A file that is written changes what is read at its own place alone: a directory
was around it before, so that no other directory comes or goes, and nobody could walk through it.
Main statement: two names of which only one leads to the place that is written are read and written
apart. -/

namespace OpenApiIR

namespace FileTree

variable {t : FileTree} {text : String} {place p q : Path} {n : FileNode} {content : List UInt8}

theorem mem_of_mem_putNode {ns : List (Path × FileNode)} {e : Path × FileNode}
    (h : e ∈ putNode ns place n) : e.1 = place ∨ e ∈ ns := by
  induction ns with
  | nil =>
    rw [putNode, List.mem_singleton] at h
    exact Or.inl (congrArg Prod.fst h)
  | cons f rest ih =>
    unfold putNode at h
    split at h
    · rcases List.mem_cons.mp h with rfl | h
      · exact Or.inl rfl
      · exact Or.inr (List.mem_cons_of_mem f h)
    · rcases List.mem_cons.mp h with rfl | h
      · exact Or.inr List.mem_cons_self
      · exact (ih h).imp_right (List.mem_cons_of_mem f)

theorem isAbove_iff :
    t.isAbove p = true ↔ ∃ e ∈ t.nodes, e.1.root = p.root ∧ p.parts <+: e.1.parts := by
  unfold isAbove
  rw [List.any_eq_true]
  simp only [decide_eq_true_eq, List.isPrefixOf_iff_prefix]

/-- What is above a directory is a directory, or has a node of its own. -/
theorem isAbove_of_directory {d : Path} (hd : t.node? d = some .directory) (hroot : d.root = p.root)
    (hparts : p.parts <+: d.parts) : p.parts.all (· = Path.up) = true ∨ t.isAbove p = true := by
  unfold node? at hd
  cases hs : t.stored? d with
  | some m =>
    obtain ⟨e, he, -⟩ := Option.map_eq_some_iff.mp hs
    have hed : e.1 = d := by simpa using List.find?_some he
    refine Or.inr (isAbove_iff.mpr ⟨e, List.mem_of_find?_eq_some he, ?_, ?_⟩)
    · rw [hed, hroot]
    · rw [hed]
      exact hparts
  | none =>
    rw [hs] at hd
    dsimp only at hd
    split at hd
    · rename_i hup
      rcases hup with hup | habove
      · refine Or.inl ?_
        rw [List.all_eq_true] at hup ⊢
        exact fun part hpart => hup part (hparts.subset hpart)
      · obtain ⟨e, he, heroot, heparts⟩ := isAbove_iff.mp habove
        exact Or.inr (isAbove_iff.mpr ⟨e, he, heroot.trans hroot, hparts.trans heparts⟩)
    · cases hd

theorem walk_append (names rest : List String) (p : Path) :
    t.walk p (names ++ rest) = (t.walk p names).bind fun q => t.walk q rest := by
  induction names generalizing p with
  | nil => rfl
  | cons name names ih =>
    rw [List.cons_append, walk, walk]
    split
    · rfl
    · rfl
    · split
      · rfl
      · exact ih _

/-- The last name of a text that can be written is the last of its path. -/
theorem Writes.parts (h : t.Writes text place) :
    (Path.ofText text).parts = (Path.ofText text).parts.dropLast ++ [lastName text] := by
  have hnamed := h.named
  simp only [not_or] at hnamed
  have hlast : (Path.segments text).getLast? = some (lastName text) := by
    unfold lastName at hnamed ⊢
    cases hs : (Path.segments text).getLast? with
    | none => simp [hs] at hnamed
    | some last => rfl
  have hsegments := List.dropLast_append_getLast? _ hlast
  have hparts : (Path.ofText text).parts =
      (Path.segments text).dropLast.filter (fun s => s ≠ "" ∧ s ≠ ".") ++ [lastName text] := by
    have hkept : [lastName text].filter (fun s => s ≠ "" ∧ s ≠ ".") = [lastName text] := by
      simp [hnamed.1, hnamed.2.1]
    rw [← hkept, ← List.filter_append, hsegments]
    rfl
  rw [hparts, List.dropLast_concat]

theorem Writes.child (h : t.Writes text place) :
    ∃ d name, t.node? d = some .directory ∧ place = d.child name := by
  obtain ⟨d, hd, hdirectory⟩ := h.around
  refine ⟨d, lastName text, hdirectory, ?_⟩
  have hlocated := h.located
  have hup : lastName text ≠ Path.up := fun hup => h.named (Or.inr (Or.inr hup))
  have hwalk : t.walk ⟨(Path.ofText text).root, []⟩ (Path.ofText text).parts.dropLast = .ok d := hd
  rw [locate, h.parts, walk_append, hwalk] at hlocated
  simp only [Except.bind, walk, hdirectory] at hlocated
  split at hlocated
  · cases hlocated
  · have hstep := Except.ok.inj hlocated
    rw [Path.step, if_pos hup] at hstep
    exact hstep.symm

theorem node?_put_of_ne (h : t.Writes text place) (hne : p ≠ place) :
    (t.put place n).node? p = t.node? p := by
  have hstored : (t.put place n).stored? p = t.stored? p := by
    rw [stored?_put, if_neg fun heq => hne heq.symm]
  unfold node?
  rw [hstored]
  cases hs : t.stored? p with
  | some m => rfl
  | none =>
    have habove : p.parts.all (· = Path.up) = true ∨ (t.put place n).isAbove p = true ↔
        p.parts.all (· = Path.up) = true ∨ t.isAbove p = true := by
      constructor
      · rintro (hup | habove)
        · exact Or.inl hup
        · obtain ⟨e, he, hroot, hparts⟩ := isAbove_iff.mp habove
          rcases mem_of_mem_putNode he with hplace | he
          -- What is above the new file is above the directory that it is written into.
          · obtain ⟨d, name, hd, hchild⟩ := h.child
            rw [hplace, hchild] at hroot hparts
            rcases List.prefix_concat_iff.mp hparts with heq | hparts
            · refine absurd ?_ hne
              rw [hchild]
              obtain ⟨root, parts⟩ := p
              simp only [Path.child] at hroot heq ⊢
              rw [hroot, heq]
            · exact isAbove_of_directory hd hroot hparts
          · exact Or.inr (isAbove_iff.mpr ⟨e, he, hroot, hparts⟩)
      · exact Or.imp_right fun habove => isAbove_put habove place n
    simp only [habove]

/-- Walking past a file that is written leads to the same place as before, or nowhere both times. -/
theorem walk_put_cases (h : t.Writes text place) (content : List UInt8) (names : List String)
    (p : Path) :
    (t.put place (.file content)).walk p names = t.walk p names ∨
    ((t.put place (.file content)).walk p names = .error .notDirectory ∧
      (t.walk p names = .error .notDirectory ∨ t.walk p names = .error .notFound)) := by
  induction names generalizing p with
  | nil => exact Or.inl rfl
  | cons name rest ih =>
    by_cases hp : p = place
    · subst hp
      refine Or.inr ⟨?_, ?_⟩
      · rw [walk, node?_put_self]
      · have hfree := h.free
        rw [walk]
        cases hn : t.node? p with
        | none => exact Or.inr rfl
        | some m =>
          cases m with
          | directory => exact absurd hn hfree
          | file before => exact Or.inl rfl
    · rw [walk, walk, node?_put_of_ne h hp]
      cases t.node? p with
      | none => exact Or.inl rfl
      | some m =>
        cases m with
        | file before => exact Or.inl rfl
        | directory =>
          dsimp only
          split
          · exact Or.inl rfl
          · exact ih _

/-- A path that does not lead to the file that is written is read as before. -/
theorem content?_put_of_ne (h : t.Writes text place) (hne : t.locate p ≠ .ok place) :
    (t.put place (.file content)).content? p = t.content? p := by
  have hcases := walk_put_cases h content p.parts ⟨p.root, []⟩
  unfold content? find locate at *
  rcases hcases with heq | ⟨hnew, hold⟩
  · rw [heq]
    cases hq : t.walk ⟨p.root, []⟩ p.parts with
    | error e => rfl
    | ok q =>
      have hplace : q ≠ place := fun hplace => hne (by rw [hq, hplace])
      simp only [bind, Except.bind, node?_put_of_ne h hplace]
  · rw [hnew]
    rcases hold with hold | hold
    · rw [hold]
      rfl
    · rw [hold]
      rfl

end FileTree

end OpenApiIR
