/-! Type expressions. A type has a kind and one nullability flag; lists and maps carry the type of
their items, and a model carries its name. A type may be put together freely, so these parts are
optional, and a missing one is shown as `Any`. -/

namespace OpenApiIR

inductive TypeKind where
  | string
  | int
  | double
  | bool
  | datetime
  | list
  | map
  | model
  | any
  deriving DecidableEq, Repr

inductive TypeRef where
  | mk (kind : TypeKind) (nullable : Bool) (item : Option TypeRef) (refName : Option String)

namespace TypeKind

def all : List TypeKind := [string, int, double, bool, datetime, list, map, model, any]

def name : TypeKind → String
  | .string => "string"
  | .int => "int"
  | .double => "double"
  | .bool => "bool"
  | .datetime => "datetime"
  | .list => "list"
  | .map => "map"
  | .model => "model"
  | .any => "any"

def ofName? (s : String) : Option TypeKind := all.find? (·.name = s)

def title : TypeKind → String
  | .string => "String"
  | .int => "Int"
  | .double => "Double"
  | .bool => "Bool"
  | .datetime => "DateTime"
  | .list => "List"
  | .map => "Map"
  | .model => "Any"
  | .any => "Any"

end TypeKind

namespace TypeRef

def kind : TypeRef → TypeKind
  | ⟨k, _, _, _⟩ => k

def nullable : TypeRef → Bool
  | ⟨_, n, _, _⟩ => n

def item : TypeRef → Option TypeRef
  | ⟨_, _, t, _⟩ => t

def refName : TypeRef → Option String
  | ⟨_, _, _, r⟩ => r

def plain (k : TypeKind) : TypeRef := ⟨k, false, none, none⟩

def string : TypeRef := plain .string
def int : TypeRef := plain .int
def double : TypeRef := plain .double
def bool : TypeRef := plain .bool
def datetime : TypeRef := plain .datetime
def any : TypeRef := plain .any
def listOf (item : TypeRef) : TypeRef := ⟨.list, false, some item, none⟩
def mapOf (value : TypeRef) : TypeRef := ⟨.map, false, some value, none⟩
def model (name : String) : TypeRef := ⟨.model, false, none, some name⟩

def orNullable (t : TypeRef) (flag : Bool) : TypeRef :=
  ⟨t.kind, t.nullable || flag, t.item, t.refName⟩

@[simp] theorem kind_orNullable (t : TypeRef) (b : Bool) : (t.orNullable b).kind = t.kind := rfl
@[simp] theorem nullable_orNullable (t : TypeRef) (b : Bool) :
    (t.orNullable b).nullable = (t.nullable || b) := rfl
@[simp] theorem item_orNullable (t : TypeRef) (b : Bool) : (t.orNullable b).item = t.item := rfl
@[simp] theorem refName_orNullable (t : TypeRef) (b : Bool) :
    (t.orNullable b).refName = t.refName := rfl

@[simp] theorem orNullable_false (t : TypeRef) : t.orNullable false = t := by
  cases t
  simp [orNullable, kind, nullable, item, refName]

theorem orNullable_orNullable (t : TypeRef) (a b : Bool) :
    (t.orNullable a).orNullable b = t.orNullable (a || b) := by
  simp [orNullable, kind, nullable, item, refName, Bool.or_assoc]

/-- `List<Int>`, `Map<String, Pet?>?`: the kind, its item, and a question mark for a nullable type.
An empty model name counts as missing. -/
def display : TypeRef → String
  | ⟨kind, nullable, item, refName⟩ =>
    let inner := match item with
      | some t => t.display
      | none => "Any"
    let text := match kind with
      | .list => "List<" ++ inner ++ ">"
      | .map => "Map<String, " ++ inner ++ ">"
      | .model => match refName with
        | some name => if name = "" then "Any" else name
        | none => "Any"
      | k => k.title
    if nullable then text ++ "?" else text

def same : TypeRef → TypeRef → Bool
  | ⟨k, n, some t, r⟩, ⟨k', n', some t', r'⟩ => k == k' && n == n' && t.same t' && r == r'
  | ⟨k, n, none, r⟩, ⟨k', n', none, r'⟩ => k == k' && n == n' && r == r'
  | _, _ => false

theorem same_iff : ∀ s t : TypeRef, s.same t = true ↔ s = t
  | ⟨k, n, some t, r⟩, ⟨k', n', some t', r'⟩ => by
    have ih := same_iff t t'
    simp [same, ih, and_assoc]
  | ⟨k, n, none, r⟩, ⟨k', n', none, r'⟩ => by simp [same, and_assoc]
  | ⟨_, _, some _, _⟩, ⟨_, _, none, _⟩ => by simp [same]
  | ⟨_, _, none, _⟩, ⟨_, _, some _, _⟩ => by simp [same]

instance : DecidableEq TypeRef := fun s t => decidable_of_iff _ (same_iff s t)

end TypeRef

end OpenApiIR
