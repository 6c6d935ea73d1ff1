import OpenApiIR.Document.Scalar

/-! Decoded documents. A value is a tree; a document that contains itself is a tree with links into
a table of collections, and a link stands for the collection it names. -/

namespace OpenApiIR

/-- Pairs are the entries of ordered maps, which are sequences. -/
inductive Value where
  | scalar (s : Scalar)
  | seq (items : List Value)
  | pair (first second : Value)
  | map (entries : List (Scalar × Value))
  | set (members : List Scalar)
  | link (cell : Nat)

abbrev Entries := List (Scalar × Value)

namespace Value

@[match_pattern] abbrev null : Value := .scalar .null
@[match_pattern] abbrev bool (b : Bool) : Value := .scalar (.bool b)
@[match_pattern] abbrev int (i : Int) : Value := .scalar (.int i)
@[match_pattern] abbrev float (x : Binary64) : Value := .scalar (.float x)
@[match_pattern] abbrev str (s : String) : Value := .scalar (.str s)

instance : Inhabited Value := ⟨.null⟩

def isNull : Value → Bool
  | .null => true
  | _ => false

def asText : Value → String
  | .str s => s
  | _ => ""

def str? : Value → Option String
  | .str s => some s
  | _ => none

def isTrue : Value → Bool
  | .bool true => true
  | _ => false

mutual

def same : Value → Value → Bool
  | .scalar s, .scalar t => s == t
  | .seq xs, .seq ys => sameItems xs ys
  | .pair v w, .pair v' w' => same v v' && same w w'
  | .map es, .map fs => sameEntries es fs
  | .set ms, .set ns => ms == ns
  | .link m, .link n => m == n
  | _, _ => false

def sameItems : List Value → List Value → Bool
  | [], [] => true
  | v :: xs, w :: ys => same v w && sameItems xs ys
  | _, _ => false

def sameEntries : List (Scalar × Value) → List (Scalar × Value) → Bool
  | [], [] => true
  | (k, v) :: es, (l, w) :: fs => k == l && same v w && sameEntries es fs
  | _, _ => false

end

mutual

theorem same_iff : ∀ v w : Value, v.same w = true ↔ v = w
  | .scalar s, w => by cases w <;> simp [same]
  | .set ms, w => by cases w <;> simp [same]
  | .link m, w => by cases w <;> simp [same]
  | .seq xs, w => by
    cases w with
    | seq ys => simp [same, sameItems_iff xs ys]
    | _ => simp [same]
  | .pair a b, w => by
    cases w with
    | pair a' b' => simp [same, same_iff a a', same_iff b b']
    | _ => simp [same]
  | .map es, w => by
    cases w with
    | map fs => simp [same, sameEntries_iff es fs]
    | _ => simp [same]

theorem sameItems_iff : ∀ xs ys : List Value, sameItems xs ys = true ↔ xs = ys
  | [], ys => by cases ys <;> simp [sameItems]
  | v :: xs, ys => by
    cases ys with
    | nil => simp [sameItems]
    | cons w ys => simp [sameItems, same_iff v w, sameItems_iff xs ys]

theorem sameEntries_iff : ∀ es fs : List (Scalar × Value), sameEntries es fs = true ↔ es = fs
  | [], fs => by cases fs <;> simp [sameEntries]
  | (k, v) :: es, fs => by
    cases fs with
    | nil => simp [sameEntries]
    | cons f fs =>
      obtain ⟨l, w⟩ := f
      simp [sameEntries, same_iff v w, sameEntries_iff es fs, and_assoc]

end

instance : DecidableEq Value := fun v w => decidable_of_iff _ (same_iff v w)

end Value

namespace Entries

def value? (es : Entries) (k : Scalar) : Option Value :=
  (List.find? (fun e => e.1.sameKey k) es).map (·.2)

def declares (es : Entries) (name : String) : Bool := (es.value? (.str name)).isSome

def field (es : Entries) (name : String) : Value := (es.value? (.str name)).getD .null

/-- Put a value under a key. A key that is there already keeps its place and its own form. -/
def put : Entries → Scalar → Value → Entries
  | [], k, v => [(k, v)]
  | (k', v') :: rest, k, v => if k'.sameKey k then (k', v) :: rest else (k', v') :: put rest k v

def ofPairs (es : List (Scalar × Value)) : Entries := es.foldl (fun m e => put m e.1 e.2) []

def keys (es : Entries) : List Scalar := es.map (·.1)

def Distinct (es : Entries) : Prop := es.keys.Pairwise fun a b => a.sameKey b = false

theorem keys_put (es : Entries) (k : Scalar) (v : Value) :
    (put es k v).keys = if es.keys.any (·.sameKey k) then es.keys else es.keys ++ [k] := by
  induction es with
  | nil => rfl
  | cons e rest ih =>
    by_cases h : e.1.sameKey k
    · simp [put, keys, h]
    · have hput : put (e :: rest) k v = e :: put rest k v := by simp [put, h]
      have hkeys : keys (e :: put rest k v) = e.1 :: (put rest k v).keys := rfl
      have hcons : keys (e :: rest) = e.1 :: keys rest := rfl
      rw [hput, hkeys, ih, hcons]
      cases hk : (keys rest).any (·.sameKey k) <;> simp [h, hk]

theorem distinct_put {es : Entries} (h : es.Distinct) (k : Scalar) (v : Value) :
    Distinct (put es k v) := by
  unfold Distinct at *
  rw [keys_put]
  split
  · exact h
  · rename_i hk
    simp only [List.any_eq_true, not_exists, not_and, Bool.not_eq_true] at hk
    exact List.pairwise_append.2 ⟨h, List.pairwise_singleton _ _, fun a ha b hb => by
      rw [List.mem_singleton.1 hb]
      exact hk a ha⟩

theorem distinct_ofPairs (es : List (Scalar × Value)) : (ofPairs es).Distinct := by
  have go : ∀ (es : List (Scalar × Value)) (m : Entries), m.Distinct →
      Distinct (es.foldl (fun m e => put m e.1 e.2) m) := by
    intro es
    induction es with
    | nil => exact fun _ h => h
    | cons e rest ih => exact fun m h => ih _ (distinct_put h e.1 e.2)
  exact go es [] List.Pairwise.nil

end Entries

/-- The collections that links name. A link to a link, or to nothing, stands for `null`. `room` is
what the stack leaves for values inside one another when one is shown. -/
structure Graph where
  cells : Array Value
  room : Nat := 900
  deriving DecidableEq

namespace Graph

def ofCells (cells : Array Value) : Graph := { cells }

def empty : Graph where
  cells := #[]

/-- The value itself, with a link at its root replaced by what it names. -/
def view (g : Graph) : Value → Value
  | .link n => match g.cells[n]? with
    | some (.link _) | none => .null
    | some v => v
  | v => v

@[simp] theorem view_scalar (g : Graph) (s : Scalar) : g.view (.scalar s) = .scalar s := rfl
@[simp] theorem view_seq (g : Graph) (xs : List Value) : g.view (.seq xs) = .seq xs := rfl
@[simp] theorem view_pair (g : Graph) (v w : Value) : g.view (.pair v w) = .pair v w := rfl
@[simp] theorem view_map (g : Graph) (es : Entries) : g.view (.map es) = .map es := rfl
@[simp] theorem view_set (g : Graph) (ms : List Scalar) : g.view (.set ms) = .set ms := rfl

theorem view_ne_link (g : Graph) (v : Value) (n : Nat) : g.view v ≠ .link n := by
  cases v with
  | link m =>
    simp only [view]
    split <;> simp_all
  | _ => simp [view]

theorem view_view (g : Graph) (v : Value) : g.view (g.view v) = g.view v := by
  have h := view_ne_link g v
  cases e : g.view v with
  | link n => exact absurd e (h n)
  | _ => rfl

def entries? (g : Graph) (v : Value) : Option Entries :=
  match g.view v with
  | .map es => some es
  | _ => none

def items? (g : Graph) (v : Value) : Option (List Value) :=
  match g.view v with
  | .seq xs => some xs
  | _ => none

def isMap (g : Graph) (v : Value) : Bool := (g.entries? v).isSome

theorem entries?_eq_some_iff {g : Graph} {v : Value} {es : Entries} :
    g.entries? v = some es ↔ g.view v = .map es := by
  unfold entries?
  split <;> simp_all

theorem items?_eq_some_iff {g : Graph} {v : Value} {xs : List Value} :
    g.items? v = some xs ↔ g.view v = .seq xs := by
  unfold items?
  cases g.view v <;> simp

theorem isMap_iff {g : Graph} {v : Value} : g.isMap v = true ↔ ∃ es, g.entries? v = some es :=
  Option.isSome_iff_exists

theorem isMap_eq_false_iff {g : Graph} {v : Value} : g.isMap v = false ↔ g.entries? v = none := by
  simp [isMap]

def kindName (g : Graph) (v : Value) : String :=
  match g.view v with
  | .scalar s => s.kindName
  | .seq _ => "list"
  | .pair .. => "tuple"
  | .map _ => "dict"
  | .set _ => "set"
  | .link _ => "NoneType"

end Graph

/-- A document: its root, and the collections that contain themselves. -/
structure Document where
  root : Value
  graph : Graph
  deriving DecidableEq

def Document.ofTree (v : Value) : Document := ⟨v, .empty⟩

def Document.ofTreeIn (room : Nat) (v : Value) : Document := ⟨v, ⟨#[], room⟩⟩

end OpenApiIR
