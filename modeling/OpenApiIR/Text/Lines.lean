/-! Line ends and cuts of text. -/

namespace OpenApiIR.Text

/-- CRLF and a lone CR become LF. -/
def unifyLineEnds : List Char → List Char
  | [] => []
  | '\r' :: '\n' :: rest => '\n' :: unifyLineEnds rest
  | c :: rest => (if c = '\r' then '\n' else c) :: unifyLineEnds rest

/-- The pieces between the separators: always one more than there are separators. -/
def splitOn (sep : Char) : List Char → List (List Char)
  | [] => [[]]
  | c :: rest =>
    if c = sep then [] :: splitOn sep rest
    else match splitOn sep rest with
      | [] => [[c]]
      | piece :: pieces => (c :: piece) :: pieces

theorem splitOn_ne_nil (sep : Char) (cs : List Char) : splitOn sep cs ≠ [] := by
  induction cs with
  | nil => simp [splitOn]
  | cons c rest ih =>
    unfold splitOn
    split
    · simp
    · split <;> simp

theorem splitOn_eq (sep : Char) (cs : List Char) : splitOn sep cs = cs.splitOn sep := by
  induction cs with
  | nil => rfl
  | cons c rest ih =>
    rw [splitOn, List.splitOn_cons_eq_if_modifyHead, ih]
    by_cases hc : c = sep
    · simp [hc]
    · cases hs : rest.splitOn sep with
      | nil => exact absurd hs (List.splitOn_ne_nil _ _)
      | cons piece pieces => simp [hc]

theorem splitOn_head_prefix {sep : Char} {cs piece : List Char} {pieces : List (List Char)}
    (h : splitOn sep cs = piece :: pieces) : piece <+: cs := by
  induction cs generalizing piece pieces with
  | nil =>
    obtain ⟨rfl, _⟩ := List.cons.inj h
    exact List.nil_prefix
  | cons c rest ih =>
    unfold splitOn at h
    split at h
    · obtain ⟨rfl, _⟩ := List.cons.inj h
      exact List.nil_prefix
    · split at h
      · rename_i hn
        exact absurd hn (splitOn_ne_nil sep rest)
      · rename_i hp
        obtain ⟨rfl, _⟩ := List.cons.inj h
        exact List.cons_prefix_cons.mpr ⟨rfl, ih hp⟩

def replacePair (a b c : Char) : List Char → List Char
  | [] => []
  | [x] => [x]
  | x :: y :: rest =>
    if x = a ∧ y = b then c :: replacePair a b c rest else x :: replacePair a b c (y :: rest)

theorem replacePair_eq_nil_iff (a b c : Char) (cs : List Char) :
    replacePair a b c cs = [] ↔ cs = [] := by
  unfold replacePair
  split
  · simp
  · simp
  · split <;> simp

/-- A text without the new character is a text in which nothing was replaced. -/
theorem replacePair_eq_self {a b c : Char} {cs : List Char} (h : c ∉ replacePair a b c cs) :
    replacePair a b c cs = cs := by
  fun_induction replacePair a b c cs with
  | case1 => rfl
  | case2 => rfl
  | case3 x y rest hxy ih => exact absurd List.mem_cons_self h
  | case4 x y rest hxy ih => rw [ih fun hm => h (List.mem_cons_of_mem x hm)]

def contains (part : List Char) : List Char → Bool
  | [] => part.isEmpty
  | c :: rest => part.isPrefixOf (c :: rest) || contains part rest

def join (sep : String) (parts : List String) : String := sep.intercalate parts

end OpenApiIR.Text
