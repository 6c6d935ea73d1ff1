import Mathlib.Data.List.Basic
import Mathlib.Logic.Function.Basic
import OpenApiIR.IR.Encode

/-! Plain forms keep what they are made of. Fields stand under fixed names, what is missing is null,
and no part has null for its own plain form. Main result: resolved documents of one plain form are
the same, and tell the same of what was left out. -/

namespace OpenApiIR

namespace Value

variable {α : Type} {encode : α → Value}

@[simp] theorem record_inj {fs gs : List (String × Value)} : record fs = record gs ↔ fs = gs := by
  constructor
  · intro h
    refine List.map_injective_iff.mpr ?_ (Value.map.inj h)
    rintro ⟨k, v⟩ ⟨k', v'⟩ hf
    obtain ⟨hk, hv⟩ := Prod.mk.inj hf
    exact Prod.ext (Scalar.str.inj hk) hv
  · intro h
    rw [h]

theorem optional_injective (h : Function.Injective encode) (hnull : ∀ a, encode a ≠ .null) :
    Function.Injective (optional encode) := by
  intro o o' heq
  cases o with
  | none =>
    cases o' with
    | none => rfl
    | some b => exact absurd heq.symm (hnull b)
  | some a =>
    cases o' with
    | none => exact absurd heq (hnull a)
    | some b => exact congrArg some (h heq)

@[simp] theorem optional_str_inj {o o' : Option String} :
    optional .str o = optional .str o' ↔ o = o' := by
  refine (optional_injective (fun s s' h => ?_) fun s h => ?_).eq_iff
  · exact Scalar.str.inj (Value.scalar.inj h)
  · cases h

@[simp] theorem texts_inj {ss ss' : List String} : texts ss = texts ss' ↔ ss = ss' := by
  refine ⟨fun h => List.map_injective_iff.mpr (fun s s' hs => ?_) (Value.seq.inj h), congrArg _⟩
  exact Scalar.str.inj (Value.scalar.inj hs)

end Value

@[simp] theorem TypeKind.name_inj {k k' : TypeKind} : k.name = k'.name ↔ k = k' := by
  cases k <;> cases k' <;> decide

@[simp] theorem EntryKind.name_inj {k k' : EntryKind} : k.name = k'.name ↔ k = k' := by
  cases k <;> cases k' <;> decide

@[simp] theorem Method.name_inj {m m' : Method} : m.name = m'.name ↔ m = m' := by
  cases m <;> cases m' <;> decide

@[simp] theorem Location.name_inj {l l' : Location} : l.name = l'.name ↔ l = l' := by
  cases l <;> cases l' <;> decide

namespace TypeRef

theorem encode_ne_null (t : TypeRef) : t.encode ≠ .null := by
  obtain ⟨k, n, i, r⟩ := t
  intro h
  cases i <;> cases h

theorem eq_of_encode_eq : ∀ t u : TypeRef, t.encode = u.encode → t = u
  | ⟨k, n, none, r⟩, ⟨k', n', none, r'⟩, h => by
    simpa [encode] using h
  | ⟨k, n, some t, r⟩, ⟨k', n', some u, r'⟩, h => by
    simp [encode] at h
    have hitem := eq_of_encode_eq t u h.2.2.1
    simp [h, hitem]
  | ⟨k, n, none, r⟩, ⟨k', n', some u, r'⟩, h => by
    have h := Value.record_inj.mp h
    simp only [List.cons.injEq, Prod.mk.injEq] at h
    exact absurd h.2.2.1.2.symm (encode_ne_null u)
  | ⟨k, n, some t, r⟩, ⟨k', n', none, r'⟩, h => by
    have h := Value.record_inj.mp h
    simp only [List.cons.injEq, Prod.mk.injEq] at h
    exact absurd h.2.2.1.2 (encode_ne_null t)

@[simp] theorem encode_inj {t u : TypeRef} : t.encode = u.encode ↔ t = u :=
  ⟨eq_of_encode_eq t u, congrArg encode⟩

end TypeRef

theorem Property.encode_injective : Function.Injective Property.encode := by
  rintro ⟨n, t, b, d⟩ ⟨n', t', b', d'⟩ h
  simpa [encode] using h

theorem Model.encode_injective : Function.Injective Model.encode := by
  rintro ⟨n, ps, d⟩ ⟨n', ps', d'⟩ h
  simpa [encode, (List.map_injective_iff.mpr Property.encode_injective).eq_iff] using h

theorem Parameter.encode_injective : Function.Injective Parameter.encode := by
  rintro ⟨n, l, t, b, d⟩ ⟨n', l', t', b', d'⟩ h
  simpa [encode] using h

theorem RequestBody.encode_injective : Function.Injective RequestBody.encode := by
  rintro ⟨t, b, d, cs⟩ ⟨t', b', d', cs'⟩ h
  simpa [encode] using h

theorem Response.encode_injective : Function.Injective Response.encode := by
  rintro ⟨s, t, d⟩ ⟨s', t', d'⟩ h
  simpa [encode] using h

theorem ResponseMap.encode_injective : Function.Injective ResponseMap.encode := by
  intro rs rs' h
  refine List.map_injective_iff.mpr ?_ (Value.map.inj h)
  rintro ⟨k, r⟩ ⟨k', r'⟩ hr
  obtain ⟨hk, hr⟩ := Prod.mk.inj hr
  exact Prod.ext (Scalar.str.inj hk) (Response.encode_injective hr)

theorem Endpoint.encode_injective : Function.Injective Endpoint.encode := by
  have hbody : Function.Injective (Value.optional RequestBody.encode) :=
    Value.optional_injective RequestBody.encode_injective fun b h => by cases h
  rintro ⟨p, m, o, s, d, ts, ps, b, rs, x⟩ ⟨p', m', o', s', d', ts', ps', b', rs', x'⟩ h
  simpa [encode, encodeWith, (List.map_injective_iff.mpr Parameter.encode_injective).eq_iff,
    hbody.eq_iff, ResponseMap.encode_injective.eq_iff] using h

theorem ApiInfo.encode_injective : Function.Injective ApiInfo.encode := by
  rintro ⟨t, v, d⟩ ⟨t', v', d'⟩ h
  simpa [encode] using h

/-- What is told of a diagnostic, which is always a warning. -/
def Diagnostic.told (d : Diagnostic) : EntryKind × String × String := (d.kind, d.subject, d.message)

def Diagnostic.encodeTold (t : EntryKind × String × String) : Value := .record [
  ("kind", .str t.1.name), ("subject", .str t.2.1), ("message", .str t.2.2),
  ("severity", .str "warning")]

theorem Diagnostic.encodeTold_injective : Function.Injective encodeTold := by
  rintro ⟨k, s, m⟩ ⟨k', s', m'⟩ h
  simpa [encodeTold] using h

theorem Diagnostic.told_eq_of_encode_eq {ds es : List Diagnostic}
    (h : ds.map encode = es.map encode) : ds.map told = es.map told := by
  have hencode : encode = encodeTold ∘ told := rfl
  rw [hencode, ← List.map_map, ← List.map_map] at h
  exact List.map_injective_iff.mpr encodeTold_injective h

/-- Two resolved documents that hold the same and tell the same. -/
structure IR.Same (ir ir' : IR) : Prop where
  openapiVersion : ir.openapiVersion = ir'.openapiVersion
  info : ir.info = ir'.info
  models : ir.models = ir'.models
  endpoints : ir.endpoints = ir'.endpoints
  diagnostics : ir.diagnostics.map Diagnostic.told = ir'.diagnostics.map Diagnostic.told

theorem IR.same_of_encode_eq {ir ir' : IR} (h : ir.encode = ir'.encode) : ir.Same ir' := by
  have hfields := Value.record_inj.mp h
  simp only [List.cons.injEq, Prod.mk.injEq, true_and, and_true, Value.seq.injEq,
    Value.optional_str_inj, ApiInfo.encode_injective.eq_iff,
    (List.map_injective_iff.mpr Model.encode_injective).eq_iff] at hfields
  obtain ⟨hversion, hinfo, hmodels, hendpoints, hdiagnostics⟩ := hfields
  exact ⟨hversion, hinfo, hmodels, List.map_injective_iff.mpr Endpoint.encode_injective hendpoints,
    Diagnostic.told_eq_of_encode_eq hdiagnostics⟩

end OpenApiIR
