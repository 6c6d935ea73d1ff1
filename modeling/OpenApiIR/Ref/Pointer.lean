import OpenApiIR.Document.Literal
import OpenApiIR.Ref.Error
import OpenApiIR.Text.Lines

/-! JSON Pointers inside a document. A pointer is `#/` and segments between slashes; in a segment
`~1` stands for a slash and `~0` for a tilde. A segment names a key of a map or an index of a list.
-/

namespace OpenApiIR

namespace Pointer

/-- First every `~1` becomes a slash, then every `~0` a tilde. -/
def unescape (segment : List Char) : List Char :=
  Text.replacePair '~' '0' '~' (Text.replacePair '~' '1' '/' segment)

theorem unescape_eq_nil_iff (segment : List Char) : unescape segment = [] ↔ segment = [] := by
  simp [unescape, Text.replacePair_eq_nil_iff]

/-- A segment without slashes and tildes is written in one way only. -/
theorem eq_of_unescape_eq {segment plain : List Char} (hslash : '/' ∉ plain) (htilde : '~' ∉ plain)
    (h : unescape segment = plain) : segment = plain := by
  unfold unescape at h
  have houter := Text.replacePair_eq_self (h ▸ htilde)
  have hinner : Text.replacePair '~' '1' '/' segment = plain := houter.symm.trans h
  exact (Text.replacePair_eq_self (hinner ▸ hslash)).symm.trans hinner

def escapeChar (c : Char) : List Char :=
  if c = '~' then ['~', '0'] else if c = '/' then ['~', '1'] else [c]

def escape (segment : List Char) : List Char := segment.flatMap escapeChar

def segments? (ref : String) : Option (List (List Char)) :=
  match ref.toList with
  | '#' :: '/' :: rest => some (Text.splitOn '/' rest)
  | _ => none

theorem segments?_ne_nil {ref : String} {segments : List (List Char)}
    (h : segments? ref = some segments) : segments ≠ [] := by
  unfold segments? at h
  split at h
  · obtain rfl := Option.some.inj h
    exact Text.splitOn_ne_nil _ _
  · cases h

/-- A decimal without a leading zero, or zero itself, of any number of digits. -/
def index? (segment : List Char) : Option Nat :=
  match segment with
  | ['0'] => some 0
  | '0' :: _ | [] => none
  | ds => if ds.all Text.isDigit then some (Text.decimalNat ds) else none

/-- The item of a list that a segment names. An index is read before it is compared with the length.
-/
def itemAt (items : List Value) (ref : String) (segment : List Char) : Except RefError Value :=
  match index? segment with
  | none => .error (.badIndex ref (String.ofList segment))
  | some i => match Limit.ofDigits? segment.length with
    | some l => .error (.limit l)
    | none => match items[i]? with
      | some w => .ok w
      | none => .error (.badIndex ref (String.ofList segment))

theorem itemAt_eq_ok {items : List Value} {ref : String} {segment : List Char} {w : Value}
    (h : itemAt items ref segment = .ok w) :
    ∃ i, index? segment = some i ∧ Limit.ofDigits? segment.length = none ∧ items[i]? = some w := by
  unfold itemAt at h
  split at h
  · cases h
  · rename_i i hi
    split at h
    · cases h
    · rename_i hn
      split at h
      · rename_i u hu
        exact ⟨i, hi, hn, hu.trans (congrArg some (Except.ok.inj h))⟩
      · cases h

theorem itemAt_eq_error {items : List Value} {ref : String} {segment : List Char} {e : RefError}
    (h : itemAt items ref segment = .error e) :
    e = .badIndex ref (String.ofList segment) ∨
      ∃ l, Limit.ofDigits? segment.length = some l ∧ e = .limit l := by
  unfold itemAt at h
  split at h
  · exact Or.inl (Except.error.inj h).symm
  · split at h
    · rename_i l hl
      exact Or.inr ⟨l, hl, (Except.error.inj h).symm⟩
    · split at h
      · cases h
      · exact Or.inl (Except.error.inj h).symm

def step (g : Graph) (ref : String) (v : Value) (segment : List Char) : Except RefError Value :=
  match g.view v with
  | .map es =>
    match Entries.value? es (.str (String.ofList segment)) with
    | some w => .ok w
    | none => .error (.missingKey ref (String.ofList segment))
  | .seq items => itemAt items ref segment
  | _ => .error (.leaf ref (g.kindName v))

def resolve (g : Graph) (root : Value) (ref : String) : Except RefError Value :=
  match segments? ref with
  | none => .error (.external ref)
  | some segments => segments.foldlM (fun v s => step g ref v (unescape s)) root

/-- Like `resolve`, for a reference of any kind; only a text can lead into the document, and any
other is shown in the refusal. -/
def resolveAny (g : Graph) (root ref : Value) : Except RefError Value :=
  match ref with
  | .str text => resolve g root text
  | other => match g.shown other with
    | .ok text => .error (.external text)
    | .error l => .error (.limit l)

def schemaPath : List Char := "#/components/schemas/".toList

/-- The name of the schema that a reference stands for: one segment, not empty, below the schemas of
the components. -/
def schemaName? (ref : String) : Option String :=
  if schemaPath.isPrefixOf ref.toList then
    let name := ref.toList.drop schemaPath.length
    if name.isEmpty || name.contains '/' then none else some (String.ofList (unescape name))
  else none

theorem schemaName?_ne_empty {ref name : String} (h : schemaName? ref = some name) : name ≠ "" := by
  unfold schemaName? at h
  split at h
  · dsimp only at h
    split at h
    · cases h
    · rename_i hn
      obtain rfl := Option.some.inj h
      intro he
      have hu := congrArg String.toList he
      simp only [String.toList_ofList, String.toList_empty, unescape_eq_nil_iff] at hu
      simp [hu] at hn
  · cases h

end Pointer

end OpenApiIR
