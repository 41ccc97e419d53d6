import Mathlib.Data.Nat.Digits.Defs
import RecordFilter.Proofs.Coercion.Typing
import RecordFilter.Value.Order

/-!
# Types whose values stand in a line

Values of such a type compare with each other, and they are the same where neither is before the
other. Only members of an enumeration can share a place: they are ordered by their ordinals, and
what is the same has the same name too.
-/

namespace RecordFilter

open RecordFilter.Calendar RecordFilter.Identifier RecordFilter.Number

/-! ## Words -/

namespace Identifier.Word

variable {base length : Nat}

theorem value_eq_ofDigits (w : Word base length) :
    w.value = Nat.ofDigits base (w.digits.reverse.map Fin.val) := by
  rw [value, Nat.ofDigits_eq_foldr, List.foldr_map, List.foldr_reverse]
  congr 1
  funext n d
  rw [Nat.add_comm, Nat.mul_comm]
  rfl

theorem value_injective (hbase : 1 < base) :
    Function.Injective (value : Word base length → Nat) := by
  intro a b h
  have hlt : ∀ w : Word base length, ∀ d ∈ w.digits.reverse.map Fin.val, d < base := by
    intro w d hd
    obtain ⟨digit, -, rfl⟩ := List.mem_map.mp hd
    exact digit.isLt
  have hlength : (a.digits.reverse.map Fin.val).length = (b.digits.reverse.map Fin.val).length := by
    simp [a.length_eq, b.length_eq]
  rw [value_eq_ofDigits, value_eq_ofDigits] at h
  have hdigits := Nat.ofDigits_inj_of_len_eq hbase hlength (hlt a) (hlt b) h
  have hreverse := List.map_injective_iff.mpr (fun _ _ => Fin.ext) hdigits
  cases a
  cases b
  cases List.reverse_injective hreverse
  rfl

end Identifier.Word

theorem Calendar.Duration.nanos_injective : Function.Injective Duration.nanos := by
  rintro ⟨nanos, _⟩ ⟨_, _⟩ rfl
  rfl

/-! ## Types -/

/-- Ordered types other than text, binary numbers and those with a calendar day. -/
def Scalar.isLinear (t : Scalar) : Bool :=
  t.isOrdered && !t.isWidened && !([.text, .f32, .f64] : List Scalar).contains t

/-- Enumerations and the linear scalar types. -/
def FieldType.isLinear : FieldType → Bool
  | scalar t => t.isLinear
  | enumeration _ => true
  | array _ | custom _ | record _ => false

namespace Value

/-- The values compare, and come out equal just where they are the same. -/
def Agree (v w : Value) : Prop :=
  ∃ o, v.compare? w = some o ∧ (v.same w = true ↔ o = .eq)

/-- Different members in the same place of one enumeration. -/
def AreTwins (v w : Value) : Prop :=
  ∃ e e', v = enumMember e ∧ w = enumMember e' ∧ e.enumName = e'.enumName ∧
    e.ordinal = e'.ordinal ∧ e.member ≠ e'.member

theorem agree_of_key {α β : Type} [DecidableEq α] [Ord β] [Std.LawfulEqOrd β] {key : α → β}
    (hkey : Function.Injective key) (a b : α) :
    ∃ o, some (compare (key a) (key b)) = some o ∧ ((a == b) = true ↔ o = .eq) := by
  refine ⟨_, rfl, ?_⟩
  rw [beq_iff_eq, Std.LawfulEqOrd.compare_eq_iff_eq, hkey.eq_iff]

theorem agree_of_holds {t : Scalar} {v w : Value} (ht : t.isLinear = true)
    (hv : t.holds v = true) (hw : t.holds w = true) : Agree v w := by
  cases t with
  | text | f32 | f64 | date | datetime | instant | period | bytes => cases ht
  | char =>
    cases v <;> cases hv
    cases w <;> cases hw
    exact agree_of_key (fun _ _ => Char.toNat_inj.mp) _ _
  | decimal =>
    cases v <;> cases hv
    cases w <;> cases hw
    exact ⟨_, rfl, beq_iff_eq⟩
  | time =>
    cases v <;> cases hv
    cases w <;> cases hw
    exact agree_of_key (fun _ _ => TimeOfDay.nanos_inj) _ _
  | duration =>
    cases v <;> cases hv
    cases w <;> cases hw
    exact agree_of_key Duration.nanos_injective _ _
  | uuid | ulid | objectId =>
    cases v <;> cases hv
    cases w <;> cases hw
    exact agree_of_key (Word.value_injective (by decide)) _ _
  | _ =>
    cases v <;> cases hv
    cases w <;> cases hw
    exact agree_of_key Function.injective_id _ _

theorem agree_of_fits {t : FieldType} {v w : Value} (ht : t.isLinear = true) (hv : t.Fits v)
    (hw : t.Fits w) (htwins : ¬ AreTwins v w) : Agree v w := by
  cases t with
  | array _ | custom _ | record _ => cases ht
  | scalar t => exact agree_of_holds ht hv hw
  | enumeration m =>
    obtain ⟨a, -, rfl⟩ := hv
    obtain ⟨b, -, rfl⟩ := hw
    refine ⟨compare a.ordinal b.ordinal, if_pos rfl, ?_⟩
    rw [same, beq_iff_eq, Std.LawfulEqOrd.compare_eq_iff_eq]
    constructor
    · exact congrArg EnumValue.ordinal
    · intro hordinal
      have hmember : a.name = b.name := by
        by_contra hne
        exact htwins ⟨m.valueOf a, m.valueOf b, rfl, rfl, rfl, hordinal, hne⟩
      rw [EnumModel.valueOf, EnumModel.valueOf, hordinal, hmember]

theorem compare?_of_areTwins {v w : Value} (h : AreTwins v w) : v.compare? w = some .eq := by
  obtain ⟨e, e', rfl, rfl, hname, hordinal, -⟩ := h
  rw [compare?, EnumValue.compare?, if_pos hname, Std.LawfulEqOrd.compare_eq_iff_eq.mpr hordinal]

theorem same_of_areTwins {v w : Value} (h : AreTwins v w) : v.same w = false := by
  obtain ⟨e, e', rfl, rfl, -, -, hmember⟩ := h
  rw [same, beq_eq_false_iff_ne]
  exact fun heq => hmember (congrArg EnumValue.member heq)

end Value

end RecordFilter
