import RecordFilter.Calendar.Period
import RecordFilter.Proofs.Calendar.Amount

/-!
# Periods that are read back

The counts of a period that was read are integers of 32 bits, and its text is read as the same
period.
-/

namespace RecordFilter.Calendar

open RecordFilter.Text RecordFilter.Number

namespace Period

/-- The counts are integers of 32 bits. -/
structure InRange (p : Period) : Prop where
  years : (IntegerRange.signed 32).Holds p.years
  months : (IntegerRange.signed 32).Holds p.months
  days : (IntegerRange.signed 32).Holds p.days

/-! ## Writing and reading -/

theorem components_text (p : Period) :
    components ['Y', 'M', 'W', 'D'] (p.text.drop 1) =
      .ok [⟨signedDecimal p.years, 'Y'⟩, ⟨signedDecimal p.months, 'M'⟩,
        ⟨signedDecimal p.days, 'D'⟩] := by
  have hletters : ∀ n : Int, ∀ c ∈ signedDecimal n, c.isAlpha = false :=
    fun n c => isAlpha_of_mem_signedDecimal
  have htext : p.text.drop 1 = signedDecimal p.years ++ 'Y' :: (signedDecimal p.months ++ 'M' ::
      (signedDecimal p.days ++ ['D'])) := by
    simp [text]
  rw [components, htext,
    readComponents_component 0 (hletters _) (signedDecimal_ne_nil _) rfl rfl (by omega),
    readComponents_component 1 (hletters _) (signedDecimal_ne_nil _) rfl rfl (by omega),
    readComponents_component 3 (hletters _) (signedDecimal_ne_nil _) rfl rfl (by omega)]
  rfl

theorem wholeNumber_signedDecimal {n : Int} (h : (IntegerRange.signed 32).Holds n) :
    wholeNumber 32 (signedDecimal n) = .ok n :=
  wholeNumber_of_read (IntegerRange.read_signedDecimal (by decide) h)

theorem inRange_eq {fault : AmountFault} {n : Int} (h : (IntegerRange.signed 32).Holds n) :
    inRange fault n = .ok n := if_pos h

theorem read_text {p : Period} (h : p.InRange) : read p.text = .ok p := by
  have hsplit : splitDesignator p.text = .ok (false, p.text.drop 1) := rfl
  rw [read, hsplit]
  change (components _ _ >>= _) = _
  rw [components_text]
  change ((List.foldlM Counts.set {} _) >>= _) = _
  have hset : List.foldlM Counts.set {} [⟨signedDecimal p.years, 'Y'⟩,
      ⟨signedDecimal p.months, 'M'⟩, ⟨signedDecimal p.days, 'D'⟩] =
        .ok ⟨p.years, p.months, 0, p.days⟩ := by
    simp only [List.foldlM_cons, List.foldlM_nil, Counts.set, wholeNumber_signedDecimal h.years,
      wholeNumber_signedDecimal h.months, wholeNumber_signedDecimal h.days]
    rfl
  have hfold : Counts.foldWeeks ⟨p.years, p.months, 0, p.days⟩ = .ok p := by
    have hdays : inRange .dayOverflow (0 + p.days) = .ok p.days := by
      rw [Int.zero_add, inRange_eq h.days]
    change (inRange .dayOverflow (0 + p.days) >>= _) = _
    rw [hdays]
    rfl
  rw [hset]
  change (Counts.foldWeeks _ >>= _) = _
  rw [hfold]
  rfl

/-! ## What is read -/

theorem holds_inRange {fault : AmountFault} {n : Int} :
    Yields (inRange fault n) (IntegerRange.signed 32).Holds := by
  unfold inRange
  split
  · exact yields_ok (by assumption)
  · exact yields_error _

/-- The counts that are read are integers of 32 bits, weeks among them. -/
structure Counts.InRange (c : Counts) : Prop where
  years : (IntegerRange.signed 32).Holds c.years
  months : (IntegerRange.signed 32).Holds c.months
  weeks : (IntegerRange.signed 32).Holds c.weeks
  days : (IntegerRange.signed 32).Holds c.days

theorem holds_wholeNumber (s : List Char) :
    Yields (wholeNumber 32 s) (IntegerRange.signed 32).Holds := by
  unfold wholeNumber
  split
  · rename_i hread
    exact yields_ok (IntegerRange.holds_read (by decide) s _ hread)
  · exact yields_error _

theorem Counts.InRange.set {counts : Counts} (h : counts.InRange) (c : Component) :
    Yields (counts.set c) Counts.InRange := by
  unfold Counts.set
  refine (holds_wholeNumber c.number).map fun n hn => ?_
  split
  · exact { h with years := hn }
  · split
    · exact { h with months := hn }
    · split
      · exact { h with weeks := hn }
      · exact { h with days := hn }

theorem Counts.InRange.foldWeeks {counts : Counts} (h : counts.InRange) :
    Yields counts.foldWeeks Period.InRange :=
  (yields_trivial _).bind fun _ _ => holds_inRange.bind fun _ hdays =>
    yields_ok ⟨h.years, h.months, hdays⟩

theorem inRange_negate (p : Period) : Yields p.negate InRange :=
  holds_inRange.bind fun _ hyears => holds_inRange.bind fun _ hmonths =>
    holds_inRange.bind fun _ hdays => yields_ok ⟨hyears, hmonths, hdays⟩

theorem inRange_read (s : List Char) : Yields (read s) InRange := by
  unfold read
  refine (yields_trivial _).bind fun split _ => (yields_trivial _).bind fun cs _ => ?_
  split
  · exact yields_error _
  · have hzero : Counts.InRange {} := ⟨by decide, by decide, by decide, by decide⟩
    refine (yields_foldlM cs hzero fun _ c h => h.set c).bind fun counts hcounts => ?_
    refine hcounts.foldWeeks.bind fun p hp => ?_
    split
    · exact inRange_negate p
    · exact yields_ok hp

end Period

end RecordFilter.Calendar
