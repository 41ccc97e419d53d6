import RecordFilter.Proofs.Calendar.Format
import RecordFilter.Proofs.Coercion.RoundTrip

/-!
# Operands of temporal types

The standard coercer reads an operand of a temporal type without the blanks around it. What it reads
as a date, it also reads as a date-time: the midnight of that date.
-/

namespace RecordFilter.Coercer

open RecordFilter.Calendar RecordFilter.Text

variable {c : Coercer} (hc : c.IsStandard)

include hc

theorem IsStandard.convert_temporal {t : Scalar} (ht : Strategy.isTemporal t = true)
    (raw : String) : c.convert (.scalar t) raw =
      (Strategy.readTemporal t raw.toList).mapError (.invalid raw (.scalar t)) := by
  have hroute : c.route (.scalar t) = some .temporal := by
    rw [hc.route_eq]
    cases t <;> first | rfl | cases ht
  rw [convert_of_ne_array c (by nofun), convertRouted, hroute]
  rfl

theorem IsStandard.coerce_temporal_eq_ok_iff {t : Scalar} (ht : Strategy.isTemporal t = true)
    {raw : String} {v : Value} (hnull : v.isNull = false) :
    c.coerce (.scalar t) raw = .ok ⟨v, .scalar t⟩ ↔
      trimChars raw.toList ≠ [] ∧ Strategy.readTemporal t (trimChars raw.toList) = .ok v := by
  have hraw : raw = String.ofList raw.toList := String.ofList_toList.symm
  rw [coerce_eq_ok_iff]
  generalize raw.toList = cs at hraw
  subst hraw
  by_cases hblank : trimChars cs = []
  · rw [unlessBlank_of_blank hblank, hblank]
    refine ⟨?_, fun h => absurd rfl h.1⟩
    rintro ⟨h, -⟩
    cases h
    cases hnull
  · rw [unlessBlank_of_not_blank hblank, hc.convert_temporal ht, String.toList_ofList]
    cases Strategy.readTemporal t (trimChars cs) with
    | error e => exact ⟨nofun, nofun⟩
    | ok x => simp [hblank, Except.mapError]

theorem IsStandard.coerce_datetime_of_date {raw : String} {d : Date}
    (h : c.coerce (.scalar .date) raw = .ok ⟨.date d, .scalar .date⟩) :
    c.coerce (.scalar .datetime) raw = .ok ⟨.datetime (.atMidnight d), .scalar .datetime⟩ := by
  obtain ⟨hblank, hread⟩ := (hc.coerce_temporal_eq_ok_iff rfl rfl).mp h
  refine (hc.coerce_temporal_eq_ok_iff rfl rfl).mpr ⟨hblank, ?_⟩
  simp only [Strategy.readTemporal] at hread ⊢
  obtain ⟨d', hd', heq⟩ := map_eq_ok_iff.mp hread
  cases heq
  rw [readDateTime?_of_readDate? (Strategy.orElse_eq_ok_iff.mp hd')]
  rfl

end RecordFilter.Coercer
