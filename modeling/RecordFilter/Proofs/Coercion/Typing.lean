import RecordFilter.Proofs.Coercion.Memory
import RecordFilter.Proofs.Yields

/-!
# Coerced values fit their types

Without strategies and types of the caller, a coercer makes values of the declared type only. Null is
made of blank text, also inside an array.
-/

namespace RecordFilter

/-! ## Types and their values -/

namespace FieldType

/-- The value, which is not null, is one of the type. Items of an array may be null. -/
def Fits : FieldType → Value → Prop
  | scalar s, v => s.holds v = true
  | array element, v =>
    ∃ items, v = .list items ∧ ∀ item ∈ items, item = .null ∨ element.Fits item
  | enumeration m, v => ∃ member ∈ m.members, v = .enumMember (m.valueOf member)
  | custom _, _ | record _, _ => False

/-- No type of the caller's own is in it. -/
def isBuiltIn : FieldType → Bool
  | array element => element.isBuiltIn
  | custom _ => false
  | scalar _ | enumeration _ | record _ => true

theorem Fits.ne_null {t : FieldType} {v : Value} (h : t.Fits v) : v ≠ .null := by
  rintro rfl
  cases t with
  | scalar t => cases t <;> cases h
  | array e =>
    obtain ⟨items, hitems, -⟩ := h
    cases hitems
  | enumeration m =>
    obtain ⟨member, -, hmember⟩ := h
    cases hmember
  | custom c => exact h
  | record name => exact h

/-- The value is null or one of the type. -/
def Admits (t : FieldType) (v : Value) : Prop := v = .null ∨ t.Fits v

end FieldType

/-- The value was declared to have the type, and it has. -/
def TypedValue.IsOf (v : TypedValue) (t : FieldType) : Prop := v.declared = t ∧ t.Admits v.value

/-! ## Strategies -/

namespace Strategy

theorem orElse_eq_ok_iff {α : Type} {reason : Reason} {o : Option α} {a : α} :
    orElse reason o = .ok a ↔ o = some a := by
  cases o <;> simp [orElse]

theorem holds_readPrimitive (t : Scalar) (s : List Char) :
    Yields (readPrimitive t s) (t.holds · = true) := by
  cases t with
  | text => exact yields_ok rfl
  | char =>
    unfold readPrimitive
    dsimp only
    split
    · exact yields_ok rfl
    · exact yields_error _
  | date | datetime | time | instant | duration | period | uuid | ulid | objectId | bytes =>
    exact yields_error _
  | _ => exact (yields_trivial _).map fun _ _ => rfl

theorem holds_readTemporal (t : Scalar) (s : List Char) :
    Yields (readTemporal t s) (t.holds · = true) := by
  cases t with
  | date | datetime | time | instant | duration | period =>
    exact (yields_trivial _).map fun _ _ => rfl
  | _ => exact yields_error _

theorem holds_readIdentifier (t : Scalar) (s : List Char) :
    Yields (readIdentifier t s) (t.holds · = true) := by
  cases t with
  | bytes => exact yields_ok rfl
  | uuid | ulid | objectId => exact (yields_trivial _).map fun _ _ => rfl
  | _ => exact yields_error _

theorem fits_read {s : Strategy} (hs : s ∈ builtIn) {t : FieldType} (ht : t.isBuiltIn = true)
    (raw : String) : Yields (s.read t raw) t.Fits := by
  cases s with
  | own o => simp [builtIn] at hs
  | primitive =>
    cases t with
    | scalar t => exact holds_readPrimitive t _
    | _ => exact yields_error _
  | temporal =>
    cases t with
    | scalar t => exact holds_readTemporal t _
    | _ => exact yields_error _
  | identifier =>
    cases t with
    | scalar t => exact holds_readIdentifier t _
    | _ => exact yields_error _
  | array => exact yields_error _
  | enumeration =>
    cases t with
    | enumeration m =>
      refine (yields_self _).map fun member h => ⟨member, ?_, rfl⟩
      exact List.mem_of_find?_eq_some (orElse_eq_ok_iff.mp h)
    | _ => exact yields_error _
  | constructor =>
    cases t with
    | custom c => cases ht
    | _ => exact yields_error _

theorem fits_convert {s : Strategy} (hs : s ∈ builtIn) {t : FieldType} (ht : t.isBuiltIn = true)
    {element : String → Except CoercionError Value}
    (helement : ∀ e, t = .array e → ∀ part, Yields (element part) e.Admits) (raw : String) :
    Yields (s.convert element t raw) t.Fits := by
  unfold convert
  split
  · simp [builtIn] at hs
  · rename_i e
    exact (yields_mapM fun part _ => helement e rfl part).map fun items h => ⟨items, rfl, h⟩
  · exact (fits_read hs ht raw).mapError

end Strategy

/-! ## Coercers -/

namespace Coercer

/-- A coercer with the built-in strategies alone, whatever it has converted before. -/
structure IsStandard (c : Coercer) : Prop where
  own : c.own = []
  truthful : c.Truthful

theorem isStandard_standard : IsStandard .standard := ⟨rfl, truthful_forget .standard⟩

variable {c : Coercer} (hc : c.IsStandard) {t : FieldType} (ht : t.isBuiltIn = true)

include hc

theorem IsStandard.route_eq (t : FieldType) : c.route t = standard.route t := by
  rw [route_eq_search hc.truthful, route_eq_search isStandard_standard.truthful, search, search,
    strategies, strategies, hc.own, isStandard_standard.own]

theorem IsStandard.mem_builtIn {s : Strategy} (h : c.route t = some s) :
    s ∈ Strategy.builtIn := by
  rw [route_eq_search hc.truthful, search, strategies, hc.own] at h
  exact List.mem_of_find?_eq_some h

include ht

theorem IsStandard.fits_convertRouted {element : String → Except CoercionError Value}
    (helement : ∀ e, t = .array e → ∀ part, Yields (element part) e.Admits) (raw : String) :
    Yields (c.convertRouted element t raw) t.Fits := by
  unfold convertRouted
  split
  · rename_i s hroute
    exact Strategy.fits_convert (hc.mem_builtIn hroute) ht helement raw
  · exact yields_error _

omit hc ht in
theorem admits_unlessBlank {convert : String → Except CoercionError Value}
    (h : ∀ raw, Yields (convert raw) t.Fits) (raw : String) :
    Yields (unlessBlank convert raw) t.Admits := by
  unfold unlessBlank
  dsimp only
  split
  · exact yields_ok (.inl rfl)
  · exact fun v hv => .inr (h _ v hv)

theorem IsStandard.fits_convert (raw : String) : Yields (c.convert t raw) t.Fits := by
  induction t generalizing raw with
  | array e ih =>
    rw [convert]
    refine hc.fits_convertRouted ht (fun e' he' => ?_) raw
    cases he'
    exact admits_unlessBlank (ih ht)
  | _ =>
    rw [convert]
    · exact hc.fits_convertRouted ht (fun _ h => by cases h) raw
    · simp

theorem IsStandard.isOf_coerce (raw : String) : Yields (c.coerce t raw) (·.IsOf t) :=
  (admits_unlessBlank (hc.fits_convert ht) raw).map fun _ h => ⟨rfl, h⟩

theorem IsStandard.isOf_coerceAll (raws : List String) :
    Yields (c.coerceAll t raws) fun values => ∀ v ∈ values, v.IsOf t :=
  yields_mapM fun raw _ => hc.isOf_coerce ht raw

end Coercer

end RecordFilter
