import RecordFilter.Proofs.Coercion.RoundTrip
import RecordFilter.Proofs.Compile.Typing

/-!
# Blank operands

A blank operand is null, whatever its type. An operand that is not blank is never null, and text of
the type for text only, unless its type is one of the caller's own.
-/

namespace RecordFilter

open RecordFilter.Text

/-- Nothing is given: all characters are blank. -/
def IsBlank (raw : String) : Prop := ∀ c ∈ raw.toList, isBlank c = true

instance (raw : String) : Decidable (IsBlank raw) :=
  decidable_of_iff (raw.toList.all isBlank = true) List.all_eq_true

theorem isEmpty_trim_iff {raw : String} : (trim raw).isEmpty = true ↔ IsBlank raw := by
  rw [String.isEmpty_iff, ← String.toList_eq_nil_iff, toList_trim, trimChars_eq_nil_iff]
  rfl

/-- What an operand of the type can be converted to: it is not null, and text only where the type is
for text. -/
def FieldType.Proper (t : FieldType) (v : Value) : Prop :=
  v ≠ .null ∧ (v.isText = true → t = .scalar .text)

namespace Coercer

variable {c : Coercer} {t : FieldType} {raw : String}

theorem coerce_of_isBlank (h : IsBlank raw) : c.coerce t raw = .ok ⟨.null, t⟩ := by
  rw [coerce, unlessBlank, if_pos (isEmpty_trim_iff.mpr h)]
  rfl

theorem coerce_of_not_isBlank (h : ¬ IsBlank raw) :
    c.coerce t raw = (c.convert t (trim raw)).map (⟨·, t⟩) := by
  rw [coerce, unlessBlank, if_neg (isEmpty_trim_iff.not.mpr h)]

variable (hc : c.IsStandard) (ht : ∀ m, t ≠ .custom m)

include hc ht

theorem IsStandard.proper_convert (raw : String) : Yields (c.convert t raw) t.Proper := by
  have hfits : t.isBuiltIn = true → Yields (c.convert t raw) t.Proper :=
    fun hbuilt => (hc.fits_convert hbuilt raw).mono fun _ hv => ⟨hv.ne_null, hv.eq_text⟩
  cases t with
  | array e =>
    have hroute : c.route (.array e) = some .array := hc.route_eq (.array e)
    rw [convert_array, convertRouted, hroute]
    refine (yields_trivial _).map fun items _ => ?_
    simp [FieldType.Proper, Value.isText]
  | custom m => exact absurd rfl (ht m)
  | _ => exact hfits rfl

theorem IsStandard.proper_coerce (h : ¬ IsBlank raw) :
    Yields (c.coerce t raw) fun v => t.Proper v.value := by
  rw [coerce_of_not_isBlank h]
  exact (hc.proper_convert ht _).map fun _ hv => hv

theorem IsStandard.value_eq_null_iff {v : TypedValue} (h : c.coerce t raw = .ok v) :
    v.value = .null ↔ IsBlank raw := by
  constructor
  · intro hnull
    by_contra hblank
    exact (hc.proper_coerce ht hblank v h).1 hnull
  · intro hblank
    rw [coerce_of_isBlank hblank] at h
    cases h
    rfl

end Coercer

end RecordFilter
