import Mathlib.Data.List.Find
import Mathlib.Tactic.SplitIfs
import OpenApiIR.Schema.Resolve

/-! One step of the resolution, taken apart. What a fragment says of its type is a form, in which at
most one fragment inside is left open; beside that, a fragment may hold a sign of null. -/

namespace OpenApiIR

/-- The same type without any flag, down to the innermost item. -/
def TypeRef.cleared : TypeRef → TypeRef
  | ⟨k, _, some t, r⟩ => ⟨k, false, some t.cleared, r⟩
  | ⟨k, _, none, r⟩ => ⟨k, false, none, r⟩

theorem TypeRef.nullable_cleared (t : TypeRef) : t.cleared.nullable = false := by
  cases t with
  | mk k n item r => cases item <;> rfl

theorem Value.str?_eq_some_iff {v : Value} {s : String} : v.str? = some s ↔ v = .str s := by
  unfold Value.str?
  split <;> simp_all

/-- What is not null is there. -/
theorem Entries.value?_of_field {es : Entries} {name : String} (h : es.field name ≠ .null) :
    es.value? (.str name) = some (es.field name) := by
  unfold field at *
  cases he : es.value? (.str name) with
  | none => simp [he] at h
  | some v => rfl

namespace Schema

/-- A type in which one fragment may be left open. -/
inductive Form where
  | known (t : TypeRef)
  | like (v : Value)
  | list (item : Value)
  | map (value : Value)

namespace Form

def type (inner : Value → TypeRef) : Form → TypeRef
  | .known t => t
  | .like v => inner v
  | .list v => .listOf (inner v)
  | .map v => .mapOf (inner v)

def inside? : Form → Option Value
  | .known _ => none
  | .like v => some v
  | .list v => some v
  | .map v => some v

/-- Forms of one kind, with the fragments that they leave open in a relation. -/
inductive Agree (R : Value → Value → Prop) : Form → Form → Prop where
  | known (t : TypeRef) : Agree R (.known t) (.known t)
  | like {v v' : Value} : R v v' → Agree R (.like v) (.like v')
  | list {v v' : Value} : R v v' → Agree R (.list v) (.list v')
  | map {v v' : Value} : R v v' → Agree R (.map v) (.map v')

variable {R : Value → Value → Prop} {inner inner' : Value → TypeRef} {f f' : Form}

theorem Agree.type_eq (h : f.Agree R f') (hi : ∀ v v', R v v' → inner' v' = inner v) :
    f'.type inner' = f.type inner := by
  cases h with
  | known t => rfl
  | like hr => exact hi _ _ hr
  | list hr => exact congrArg TypeRef.listOf (hi _ _ hr)
  | map hr => exact congrArg TypeRef.mapOf (hi _ _ hr)

theorem type_congr (h : ∀ v, f.inside? = some v → inner' v = inner v) :
    f.type inner' = f.type inner := by
  cases f with
  | known t => rfl
  | like v => exact h v rfl
  | list v => exact congrArg TypeRef.listOf (h v rfl)
  | map v => exact congrArg TypeRef.mapOf (h v rfl)

end Form

/-! The members of a union, as values. -/

def typed (g : Graph) (v : Value) (word : String) : Bool :=
  match g.entries? v with
  | some es => hasType es word
  | none => false

def candidates (g : Graph) (ms : List Value) : List Value :=
  ms.filter fun m => g.isMap m && !typed g m "null"

def choice? (g : Graph) (cs : List Value) : Option Value :=
  (cs.find? fun m => !typed g m "object").or cs.head?

theorem typed_eq {g : Graph} {v : Value} {es : Entries} (h : g.entries? v = some es)
    (word : String) :
    typed g v word = hasType es word := by
  simp only [typed, h]

theorem entries?_of_mem_mapMembers {g : Graph} {ms : List Value} {m : Value × Entries}
    (h : m ∈ mapMembers g ms) : g.entries? m.1 = some m.2 := by
  obtain ⟨v, _, hv⟩ := List.mem_filterMap.mp h
  obtain ⟨es, he, rfl⟩ := Option.map_eq_some_iff.mp hv
  exact he

theorem candidates_eq (g : Graph) (ms : List Value) :
    ((mapMembers g ms).filter fun m => !hasType m.2 "null").map (·.1) = candidates g ms := by
  induction ms with
  | nil => rfl
  | cons v rest ih =>
    cases he : g.entries? v with
    | none =>
      have hmap : g.isMap v = false := Graph.isMap_eq_false_iff.mpr he
      simpa [mapMembers, candidates, he, hmap] using ih
    | some es =>
      have hmap : g.isMap v = true := Graph.isMap_iff.mpr ⟨es, he⟩
      cases ht : hasType es "null" with
      | true => simpa [mapMembers, candidates, he, hmap, typed_eq he, ht] using ih
      | false => simpa [mapMembers, candidates, he, hmap, typed_eq he, ht] using ih

theorem primary?_eq (g : Graph) (ms : List Value) :
    primary? (mapMembers g ms) = choice? g (candidates g ms) := by
  have hobject : ∀ m ∈ (mapMembers g ms).filter fun m => !hasType m.2 "null",
      (!hasType m.2 "object") = !typed g m.1 "object" := by
    intro m hm
    rw [typed_eq (entries?_of_mem_mapMembers (List.mem_filter.mp hm).1)]
  simp only [primary?, choice?]
  rw [← candidates_eq, List.find?_map, List.head?_map, Option.map_or, List.find?_congr hobject]
  rfl

theorem admitsNull_eq (g : Graph) (ms : List Value) :
    admitsNull (mapMembers g ms) = ms.any (typed g · "null") := by
  induction ms with
  | nil => rfl
  | cons v rest ih =>
    cases he : g.entries? v with
    | none =>
      have hmembers : mapMembers g (v :: rest) = mapMembers g rest := by
        simp only [mapMembers, List.filterMap_cons, he, Option.map_none]
      rw [hmembers, ih, List.any_cons]
      simp only [typed, he, Bool.false_or]
    | some es =>
      have hmembers : mapMembers g (v :: rest) = (v, es) :: mapMembers g rest := by
        simp only [mapMembers, List.filterMap_cons, he, Option.map_some]
      rw [hmembers, List.any_cons, typed_eq he, ← ih]
      rfl

/-! The form of a fragment, and its sign of null. -/

def isUnion (es : Entries) : Bool := es.declares "anyOf" || es.declares "oneOf"

def unionForm (g : Graph) (es : Entries) : Form :=
  match (unionMembers? g es).bind fun ms => choice? g (candidates g ms) with
  | some v => .like v
  | none => .known .any

/-- What the `type` keyword says, but for null. -/
inductive Keyword where
  | listed (first : Option String)
  | word (text : String)
  | missing

def firstWord? (words : List Value) : Option String :=
  (words.filterMap Value.str?).find? (· ≠ "null")

def keyword (g : Graph) (es : Entries) : Keyword :=
  match g.view (es.field "type") with
  | .seq words => .listed (firstWord? words)
  | .str text => .word text
  | _ => .missing

/-- A part of a list or a map; what is no map leaves the part open to anything. -/
def partForm (g : Graph) (around : Value → Form) (anything : TypeRef) (v : Value) : Form :=
  if g.isMap v then around v else .known anything

def wordForm (g : Graph) (es : Entries) (word : String) : Form :=
  if word = "string" then .known (if isTimeFormat (es.field "format") then .datetime else .string)
  else if word = "array" then partForm g .list (.listOf .any) (es.field "items")
  else if word = "object" then partForm g .map (.mapOf .any) (es.field "additionalProperties")
  else .known (wordType word)

def keywordForm (g : Graph) (es : Entries) : Keyword → Form
  | .listed (some word) => .known (wordType word)
  | .listed none => .known .any
  | .word word => if word ∈ Shape.scalarWords then wordForm g es word else .known .any
  | .missing => .known .any

def bareForm (g : Graph) (es : Entries) : Form :=
  if isUnion es then unionForm g es else keywordForm g es (keyword g es)

def form (g : Graph) (v : Value) : Form :=
  match g.entries? v with
  | none => .known .any
  | some es => match es.value? (.str "$ref") with
    | some ref => .known (refType ref)
    | none => bareForm g es

def unionSign (g : Graph) (es : Entries) : Bool :=
  (unionMembers? g es).any fun ms => ms.any (typed g · "null")

def listSign (g : Graph) (es : Entries) : Bool :=
  (g.items? (es.field "type")).any fun words => (words.filterMap Value.str?).contains "null"

def bareSign (g : Graph) (es : Entries) : Bool :=
  (if isUnion es then unionSign g es else listSign g es) || (es.field "nullable").isTrue

def sign (g : Graph) (v : Value) : Bool :=
  match g.entries? v with
  | none => false
  | some es => (es.value? (.str "$ref")).isNone && bareSign g es

theorem unionType_eq (g : Graph) (inner : Value → TypeRef) (es : Entries) :
    unionType g inner es = ((unionForm g es).type inner).orNullable (unionSign g es) := by
  unfold unionType unionForm unionSign
  cases unionMembers? g es with
  | none => rfl
  | some ms =>
    simp only [primary?_eq, admitsNull_eq, Option.bind_some, Option.any_some]
    cases choice? g (candidates g ms) <;> rfl

theorem wordForm_type (g : Graph) (inner : Value → TypeRef) (es : Entries) (word : String) :
    (wordForm g es word).type inner = scalarType g inner es word := by
  unfold wordForm scalarType partForm
  split
  · rfl
  split
  · split <;> simp_all [Form.type]
  split
  · split <;> simp_all [Form.type]
  · rfl

theorem typeArrayType_eq (g : Graph) (inner : Value → TypeRef) (es : Entries) (words : List Value) :
    typeArrayType words = ((keywordForm g es (.listed (firstWord? words))).type inner).orNullable
      ((words.filterMap Value.str?).contains "null") := by
  have hfirst : (words.filterMap Value.str?).find? (· ≠ "null") = firstWord? words := rfl
  simp only [typeArrayType, hfirst]
  cases firstWord? words <;> rfl

theorem bareType_eq (g : Graph) (inner : Value → TypeRef) (es : Entries) :
    (bareType g inner es).orNullable (es.field "nullable").isTrue =
      ((bareForm g es).type inner).orNullable (bareSign g es) := by
  have hunion : (es.declares "anyOf" || es.declares "oneOf") = isUnion es := rfl
  rw [bareSign, ← TypeRef.orNullable_orNullable]
  congr 1
  unfold bareType bareForm
  rw [hunion]
  cases isUnion es with
  | true => exact unionType_eq g inner es
  | false =>
    simp only [Bool.false_eq_true, if_false, keyword, listSign, Graph.items?]
    generalize g.view (es.field "type") = look
    cases look with
    | seq words =>
      exact typeArrayType_eq g inner es words
    | scalar s =>
      cases s with
      | str text =>
        simp only [Option.any_none, TypeRef.orNullable_false, keywordForm]
        split
        · exact (wordForm_type g inner es text).symm
        · rfl
      | _ => rfl
    | _ => rfl

/-- A step fills in the form, and raises the flag where there is a sign. -/
theorem stepType_eq (g : Graph) (inner : Value → TypeRef) (v : Value) :
    stepType g inner v = ((form g v).type inner).orNullable (sign g v) := by
  unfold stepType form sign
  cases g.entries? v with
  | none => exact (TypeRef.orNullable_false _).symm
  | some es =>
    cases hr : es.value? (.str "$ref") with
    | some ref =>
      simp only [hr, Option.isNone_some, Bool.false_and, TypeRef.orNullable_false]
      rfl
    | none =>
      simp only [hr, Option.isNone_none, Bool.true_and]
      exact bareType_eq g inner es

def Bare (g : Graph) (v : Value) (es : Entries) : Prop :=
  g.entries? v = some es ∧ es.value? (.str "$ref") = none

variable {g : Graph} {v w : Value} {es : Entries}

theorem form_bare (h : Bare g v es) : form g v = bareForm g es := by
  simp only [form, h.1, h.2]

theorem sign_bare (h : Bare g v es) : sign g v = bareSign g es := by
  simp only [sign, h.1, h.2, Option.isNone_none, Bool.true_and]

theorem form_ref {ref : Value} (he : g.entries? v = some es)
    (hr : es.value? (.str "$ref") = some ref) :
    form g v = .known (refType ref) ∧ sign g v = false := by
  simp [form, sign, he, hr]

theorem form_not_map (h : g.entries? v = none) : form g v = .known .any ∧ sign g v = false := by
  simp [form, sign, h]

theorem exists_bare_of_sign (h : sign g v = true) : ∃ es, Bare g v es := by
  cases he : g.entries? v with
  | none => simp [(form_not_map he).2] at h
  | some es =>
    cases hr : es.value? (.str "$ref") with
    | none => exact ⟨es, he, hr⟩
    | some ref => simp [(form_ref he hr).2] at h

/-- The type that a union has from its members, but for their signs of null. -/
def memberType (g : Graph) (inner : Value → TypeRef) (ms : List Value) : TypeRef :=
  match choice? g (candidates g ms) with
  | some w => inner w
  | none => .any

theorem stepType_union {ms : List Value} (inner : Value → TypeRef) (hb : Bare g v es)
    (hu : isUnion es = true) (hm : unionMembers? g es = some ms) :
    stepType g inner v = (memberType g inner ms).orNullable
      (ms.any (typed g · "null") || (es.field "nullable").isTrue) := by
  rw [stepType_eq, form_bare hb, sign_bare hb]
  simp only [bareForm, bareSign, hu, if_true, unionForm, unionSign, hm, Option.bind_some,
    Option.any_some, memberType]
  cases choice? g (candidates g ms) <;> rfl

/-- The forms that leave a fragment open, and when a map has them. -/
inductive Opens (g : Graph) (es : Entries) : Form → Prop where
  | member {ms : List Value} {w : Value} : isUnion es = true → unionMembers? g es = some ms →
      choice? g (candidates g ms) = some w → Opens g es (.like w)
  | items : isUnion es = false → g.view (es.field "type") = .str "array" →
      g.isMap (es.field "items") = true → Opens g es (.list (es.field "items"))
  | values : isUnion es = false → g.view (es.field "type") = .str "object" →
      g.isMap (es.field "additionalProperties") = true →
      Opens g es (.map (es.field "additionalProperties"))

theorem Opens.bareForm_eq {f : Form} (h : Opens g es f) : bareForm g es = f := by
  cases h with
  | member hu hm hc => simp only [bareForm, hu, if_true, unionForm, hm, Option.bind_some, hc]
  | items hu ht hi =>
    simp [bareForm, hu, keyword, ht, keywordForm, Shape.scalarWords, wordForm, partForm, hi]
  | values hu ht hv =>
    simp [bareForm, hu, keyword, ht, keywordForm, Shape.scalarWords, wordForm, partForm, hv]

theorem wordType_cleared (word : String) : (wordType word).cleared = wordType word := by
  unfold wordType
  split_ifs <;> rfl

theorem refType_cleared (ref : Value) : (refType ref).cleared = refType ref := by
  unfold refType
  split
  · split <;> rfl
  · rfl

theorem wordForm_cases {word : String} (hu : isUnion es = false)
    (hv : g.view (es.field "type") = .str word) :
    Opens g es (wordForm g es word) ∨ ∃ t, wordForm g es word = .known t ∧ t.cleared = t := by
  unfold wordForm partForm
  by_cases hs : word = "string"
  · refine Or.inr ⟨_, if_pos hs, ?_⟩
    split <;> rfl
  rw [if_neg hs]
  by_cases ha : word = "array"
  · rw [if_pos ha]
    cases hi : g.isMap (es.field "items") with
    | true => exact Or.inl (.items hu (ha ▸ hv) hi)
    | false => exact Or.inr ⟨_, rfl, rfl⟩
  rw [if_neg ha]
  by_cases ho : word = "object"
  · rw [if_pos ho]
    cases hi : g.isMap (es.field "additionalProperties") with
    | true => exact Or.inl (.values hu (ho ▸ hv) hi)
    | false => exact Or.inr ⟨_, rfl, rfl⟩
  · rw [if_neg ho]
    exact Or.inr ⟨_, rfl, wordType_cleared word⟩

/-- A map without a `$ref` leaves a fragment open, or its type is known and without any flag. -/
theorem bareForm_cases (g : Graph) (es : Entries) :
    Opens g es (bareForm g es) ∨ ∃ t, bareForm g es = .known t ∧ t.cleared = t := by
  unfold bareForm
  cases hu : isUnion es with
  | true =>
    simp only [if_true, unionForm]
    cases hm : unionMembers? g es with
    | none => exact Or.inr ⟨_, rfl, rfl⟩
    | some ms =>
      simp only [Option.bind_some]
      cases hc : choice? g (candidates g ms) with
      | none => exact Or.inr ⟨_, rfl, rfl⟩
      | some w => exact Or.inl (.member hu hm hc)
  | false =>
    simp only [Bool.false_eq_true, if_false, keyword]
    cases hv : g.view (es.field "type") with
    | seq words =>
      dsimp only
      cases firstWord? words with
      | none => exact Or.inr ⟨_, rfl, rfl⟩
      | some word => exact Or.inr ⟨_, rfl, wordType_cleared word⟩
    | scalar s =>
      cases s with
      | str word =>
        simp only [keywordForm]
        split
        · exact wordForm_cases hu hv
        · exact Or.inr ⟨_, rfl, rfl⟩
      | _ => exact Or.inr ⟨_, rfl, rfl⟩
    | _ => exact Or.inr ⟨_, rfl, rfl⟩

theorem form_cases (g : Graph) (v : Value) :
    (∃ es, Bare g v es ∧ Opens g es (form g v)) ∨ ∃ t, form g v = .known t ∧ t.cleared = t := by
  cases he : g.entries? v with
  | none => exact Or.inr ⟨_, (form_not_map he).1, rfl⟩
  | some es =>
    cases hr : es.value? (.str "$ref") with
    | some ref => exact Or.inr ⟨_, (form_ref he hr).1, refType_cleared ref⟩
    | none =>
      have hb : Bare g v es := ⟨he, hr⟩
      rw [form_bare hb]
      rcases bareForm_cases g es with ho | hk
      · exact Or.inl ⟨es, hb, ho⟩
      · exact Or.inr hk

theorem known_cleared {t : TypeRef} (h : form g v = .known t) : t.cleared = t := by
  rcases form_cases g v with ⟨es, _, ho⟩ | ⟨t', ht', hc⟩
  · rw [h] at ho
    cases ho
  · obtain rfl := Form.known.inj (h.symm.trans ht')
    exact hc

theorem nullable_known {t : TypeRef} (h : form g v = .known t) : t.nullable = false := by
  rw [← known_cleared h]
  exact t.nullable_cleared

end Schema

end OpenApiIR
