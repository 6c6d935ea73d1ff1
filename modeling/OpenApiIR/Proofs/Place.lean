import OpenApiIR.Proofs.Form

/-! Fragments in their places. Around a place stands all that a fragment says beside the one inside
it; of that, putting something else in the place changes nothing. -/

namespace OpenApiIR

namespace Schema

inductive PartKey where
  | items
  | additionalProperties
  deriving DecidableEq

inductive UnionKey where
  | anyOf
  | oneOf
  deriving DecidableEq

def PartKey.name : PartKey → String
  | .items => "items"
  | .additionalProperties => "additionalProperties"

def UnionKey.name : UnionKey → String
  | .anyOf => "anyOf"
  | .oneOf => "oneOf"

def around (before after : Entries) (name : String) (v : Value) : Entries :=
  before ++ (.str name, v) :: after

/-- A place of a fragment inside a fragment, with all that is around it. -/
inductive Place where
  | here
  | part (before : Entries) (key : PartKey) (inside : Place) (after : Entries)
  | member (before : Entries) (key : UnionKey) (left : List Value) (inside : Place)
      (right : List Value) (after : Entries)

namespace Place

def fill : Place → Value → Value
  | here, v => v
  | part before key inside after, v => .map (around before after key.name (inside.fill v))
  | member before key left inside right after, v =>
    .map (around before after key.name (.seq (left ++ inside.fill v :: right)))

def within : Place → Place → Place
  | here, p => p
  | part before key inside after, p => part before key (inside.within p) after
  | member before key left inside right after, p =>
    member before key left (inside.within p) right after

theorem fill_within (p q : Place) (v : Value) : (p.within q).fill v = p.fill (q.fill v) := by
  induction p with
  | here => rfl
  | part before key inside after ih => simp only [within, fill, ih]
  | member before key left inside right after ih => simp only [within, fill, ih]

end Place

variable {g : Graph} {v v' w w' : Value} {es before after : Entries}

theorem value?_around {key : String} (name : String) (h : name ≠ key) :
    (around before after key w').value? (.str name) =
      (around before after key w).value? (.str name) := by
  have hkey : Scalar.sameKey (.str key) (.str name) = false := by
    rw [Scalar.sameKey_str]
    simpa using h.symm
  simp [around, Entries.value?, List.find?_append, hkey]

theorem field_around {key : String} (name : String) (h : name ≠ key) :
    (around before after key w').field name = (around before after key w).field name := by
  rw [Entries.field, Entries.field, value?_around name h]

theorem value?_around_self (key : String) :
    (around before after key w).value? (.str key) = some ((before.value? (.str key)).getD w) := by
  have hkey : Scalar.sameKey (.str key) (.str key) = true := by
    rw [Scalar.sameKey_str]
    simp
  simp only [around, Entries.value?, List.find?_append, List.find?_cons, hkey]
  cases List.find? (fun e => e.1.sameKey (.str key)) before <;> rfl

theorem field_around_self (before after : Entries) (key : String) :
    (∃ u, ∀ w, (around before after key w).field key = u) ∨
      ∀ w, (around before after key w).field key = w := by
  simp only [Entries.field, value?_around_self, Option.getD_some]
  cases before.value? (.str key) with
  | some u => exact Or.inl ⟨u, fun _ => rfl⟩
  | none => exact Or.inr fun _ => rfl

theorem declares_around (key name : String) :
    (around before after key w').declares name = (around before after key w).declares name := by
  unfold Entries.declares
  by_cases h : name = key
  · rw [h, value?_around_self, value?_around_self]
    rfl
  · rw [value?_around name h]

theorem isUnion_around (key : String) :
    isUnion (around before after key w') = isUnion (around before after key w) := by
  rw [isUnion, isUnion, declares_around key "anyOf", declares_around key "oneOf"]

theorem exists_around {key : String} (h : es.value? (.str key) = some v) :
    ∃ before after, es = around before after key v ∧ before.value? (.str key) = none ∧
      ∀ w, es.put (.str key) w = around before after key w := by
  induction es with
  | nil => cases h
  | cons e rest ih =>
    obtain ⟨k, x⟩ := e
    by_cases hk : k.sameKey (.str key) = true
    · obtain rfl := (Scalar.str_sameKey_iff key k).mp hk
      have hx : x = v := by simpa [Entries.value?, hk] using h
      refine ⟨[], rest, by rw [hx]; rfl, rfl, fun w => ?_⟩
      simp [Entries.put, hk, around]
    · have hrest : Entries.value? rest (.str key) = some v := by
        simpa [Entries.value?, hk] using h
      obtain ⟨before, after, hes, hnone, hput⟩ := ih hrest
      refine ⟨(k, x) :: before, after, by rw [hes]; rfl, ?_, fun w => ?_⟩
      · simpa [Entries.value?, hk] using hnone
      · simp [Entries.put, hk, hput w, around]

theorem field_around_first {key : String} (h : before.value? (.str key) = none) (w : Value) :
    (around before after key w).field key = w := by
  rw [Entries.field, value?_around_self, h]
  rfl

/-- The key that a union has its members under. -/
def unionKey (es : Entries) : UnionKey := if (es.field "anyOf").isNull then .oneOf else .anyOf

theorem unionMembers?_eq (g : Graph) (es : Entries) :
    unionMembers? g es = g.items? (es.field (unionKey es).name) := by
  simp only [unionMembers?, unionKey]
  cases (es.field "anyOf").isNull <;> rfl

/-- Which members a list has makes no difference to where it is looked for. -/
theorem unionKey_around (key : UnionKey) (ms ms' : List Value) :
    unionKey (around before after key.name (.seq ms')) =
      unionKey (around before after key.name (.seq ms)) := by
  unfold unionKey
  cases key with
  | anyOf =>
    rcases field_around_self before after "anyOf" with ⟨u, hu⟩ | hu
    · simp only [UnionKey.name, hu]
    · simp only [UnionKey.name, hu, Value.isNull]
  | oneOf =>
    have hany : (around before after UnionKey.oneOf.name (.seq ms')).field "anyOf" =
        (around before after UnionKey.oneOf.name (.seq ms)).field "anyOf" :=
      field_around "anyOf" (by decide)
    rw [hany]

theorem UnionKey.name_ne {key other : UnionKey} (h : key ≠ other) : key.name ≠ other.name := by
  cases key <;> cases other <;> simp_all [UnionKey.name]

/-- A list under its own key is that of the union, unless another one counts. -/
theorem unionMembers?_list (key : UnionKey) (before after : Entries) :
    (∃ o, ∀ ms, unionMembers? g (around before after key.name (.seq ms)) = o) ∨
      ∀ ms, unionMembers? g (around before after key.name (.seq ms)) = some ms := by
  have hfield : ∀ ms, unionMembers? g (around before after key.name (.seq ms)) =
      g.items? ((around before after key.name (.seq ms)).field
        (unionKey (around before after key.name (.seq []))).name) := by
    intro ms
    rw [unionMembers?_eq, unionKey_around key []]
  by_cases hkey : unionKey (around before after key.name (.seq [])) = key
  · rcases field_around_self before after key.name with ⟨u, hu⟩ | hu
    · exact Or.inl ⟨g.items? u, fun ms => by rw [hfield, hkey, hu]⟩
    · exact Or.inr fun ms => by rw [hfield, hkey, hu]; rfl
  · refine Or.inl ⟨unionMembers? g (around before after key.name (.seq [])), fun ms => ?_⟩
    rw [hfield, hfield []]
    exact congrArg _ (field_around _ (UnionKey.name_ne hkey))

theorem unionMembers?_part (key : PartKey) :
    unionMembers? g (around before after key.name w') =
      unionMembers? g (around before after key.name w) := by
  unfold unionMembers?
  rw [field_around "anyOf" (by cases key <;> decide),
    field_around "oneOf" (by cases key <;> decide)]

theorem bareSign_around {key : String} (hkey : "type" ≠ key) (hnull : "nullable" ≠ key)
    (hu : unionSign g (around before after key w') = unionSign g (around before after key w)) :
    bareSign g (around before after key w') = bareSign g (around before after key w) := by
  unfold bareSign listSign
  rw [isUnion_around, hu, field_around "type" hkey, field_around "nullable" hnull]

theorem keyword_around {key : String} (hkey : "type" ≠ key) :
    keyword g (around before after key w') = keyword g (around before after key w) := by
  unfold keyword
  rw [field_around "type" hkey]

theorem hasType_around {key : String} (hkey : "type" ≠ key) (word : String) :
    hasType (around before after key w') word = hasType (around before after key w) word := by
  rw [hasType, hasType, field_around "type" hkey]

theorem isMap_fill (h : g.isMap v' = g.isMap v) (p : Place) :
    g.isMap (p.fill v') = g.isMap (p.fill v) := by
  cases p with
  | here => exact h
  | part before key inside after => rfl
  | member before key left inside right after => rfl

end Schema

end OpenApiIR
