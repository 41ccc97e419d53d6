import RecordFilter.Proofs.Calendar.AmountGrammar
import RecordFilter.Proofs.Calendar.Period

/-!
# What a text says of a period

The written form of periods, and what comes of the counts that stand in it: weeks go into days, and
then all counts get the sign. Nothing wraps around: a text is refused where the weeks, the days with
the weeks, or a count with its sign are no integer of 32 bits.
-/

namespace RecordFilter.Calendar

open RecordFilter.Number

namespace Period

/-! ## The written form -/

def units : List Char := ['Y', 'M', 'W', 'D']

/-- The text has at least one of the counts, each a number with its unit, in the order of the
units. -/
inductive Writes (negative : Bool) : Counts → List Char → Prop
  | mk {s body : List Char} {years months weeks days : Option Int}
      (hdesignated : IsDesignated negative body s)
      (hbody : Parts (fun _ => IsWhole 32) units body [years, months, weeks, days])
      (hsome : body ≠ []) :
      Writes negative ⟨years.getD 0, months.getD 0, weeks.getD 0, days.getD 0⟩ s

namespace Counts

def daysOfWeeks (c : Counts) : Int := c.weeks * 7

/-- The days of the weeks and the days. -/
def allDays (c : Counts) : Int := c.daysOfWeeks + c.days

/-- The period that the counts write behind a sign. -/
def signed (negative : Bool) (c : Counts) : Period :=
  if negative then ⟨-c.years, -c.months, -c.allDays⟩ else ⟨c.years, c.months, c.allDays⟩

/-- The days are integers of 32 bits before they get their sign. -/
structure DaysFit (c : Counts) : Prop where
  daysOfWeeks : (IntegerRange.signed 32).Holds c.daysOfWeeks
  allDays : (IntegerRange.signed 32).Holds c.allDays

/-- What comes of counts that were read. -/
def finish (negative : Bool) (c : Counts) : Except AmountFault Period := do
  let p ← c.foldWeeks
  if negative then p.negate else return p

end Counts

/-! ## Reading the counts -/

theorem areUnits : AreUnits units := ⟨by decide, by decide⟩

/-- The counts with one more count. -/
def put (counts : Counts) (unit : Char) (n : Int) : Counts :=
  if unit = 'Y' then { counts with years := n }
  else if unit = 'M' then { counts with months := n }
  else if unit = 'W' then { counts with weeks := n }
  else { counts with days := n }

theorem readsNumbers : ReadsNumbers units (fun _ => IsWhole 32) Counts.set put where
  isLetterless _ _ _ _ h := h.isLetterless
  step unit _ counts s counts' := by
    rw [Counts.set, map_eq_ok_iff]
    simp only [wholeNumber_eq_ok_iff]
    rfl

theorem putParts_units (years months weeks days : Option Int) :
    putParts put {} units [years, months, weeks, days] =
      ⟨years.getD 0, months.getD 0, weeks.getD 0, days.getD 0⟩ := by
  cases years <;> cases months <;> cases weeks <;> cases days <;> rfl

theorem exists_counts_iff {body : List Char} {counts : Counts} :
    (∃ cs, components units body = .ok cs ∧ cs.foldlM Counts.set {} = .ok counts) ↔
      ∃ years months weeks days : Option Int,
        Parts (fun _ => IsWhole 32) units body [years, months, weeks, days] ∧
          ⟨years.getD 0, months.getD 0, weeks.getD 0, days.getD 0⟩ = counts := by
  rw [exists_foldlM_components_iff areUnits readsNumbers]
  constructor
  · rintro ⟨ns, hns, rfl⟩
    obtain ⟨years, months, weeks, days, rfl⟩ : ∃ y m w d, ns = [y, m, w, d] := by
      match ns, hns.length_eq with
      | [y, m, w, d], _ => exact ⟨y, m, w, d, rfl⟩
    exact ⟨years, months, weeks, days, hns, (putParts_units _ _ _ _).symm⟩
  · rintro ⟨years, months, weeks, days, hns, rfl⟩
    exact ⟨_, hns, putParts_units _ _ _ _⟩

theorem read_of_writes {negative : Bool} {counts : Counts} {s : List Char}
    (h : Writes negative counts s) : read s = counts.finish negative := by
  obtain ⟨hdesignated, hbody, hsome⟩ := h
  obtain ⟨cs, hcs, hcounts⟩ := exists_counts_iff.mpr ⟨_, _, _, _, hbody, rfl⟩
  have hnil : cs.isEmpty = false := by
    rw [List.isEmpty_eq_false_iff]
    exact mt (components_eq_nil_iff areUnits hcs).mp hsome
  rw [units] at hcs
  simp only [read, splitDesignator_eq_ok_iff.mpr hdesignated, hcs, hcounts, hnil, bind,
    Except.bind, Bool.false_eq_true, if_false]
  rfl

theorem exists_writes_of_read {s : List Char} {p : Period} (h : read s = .ok p) :
    ∃ negative counts, Writes negative counts s := by
  obtain ⟨⟨negative, body⟩, hsplit, h⟩ := bind_eq_ok_iff.mp h
  obtain ⟨cs, hcs, h⟩ := bind_eq_ok_iff.mp h
  split at h
  · cases h
  · rename_i hnil
    obtain ⟨counts, hcounts, h⟩ := bind_eq_ok_iff.mp h
    obtain ⟨years, months, weeks, days, hparts, rfl⟩ := exists_counts_iff.mp ⟨cs, hcs, hcounts⟩
    refine ⟨negative, _, .mk (splitDesignator_eq_ok_iff.mp hsplit) hparts fun hbody => hnil ?_⟩
    rw [List.isEmpty_iff]
    exact (components_eq_nil_iff areUnits hcs).mpr hbody

/-! ## What comes of the counts -/

theorem holds_of_mem_parts {body : List Char} {ns : List (Option Int)} {n : Option Int}
    (h : Parts (fun _ => IsWhole 32) units body ns) (hn : n ∈ ns) :
    (IntegerRange.signed 32).Holds (n.getD 0) := by
  cases n with
  | none => exact IntegerRange.holds_signed_zero 32
  | some n =>
    obtain ⟨-, -, digits, hdigits⟩ := h.exists_number hn
    obtain ⟨-, -, hholds⟩ := hdigits
    exact hholds

theorem Writes.inRange {negative : Bool} {counts : Counts} {s : List Char}
    (h : Writes negative counts s) : counts.InRange := by
  obtain ⟨-, hbody, -⟩ := h
  have hholds := fun n => holds_of_mem_parts (n := n) hbody
  exact ⟨hholds _ (by simp), hholds _ (by simp), hholds _ (by simp), hholds _ (by simp)⟩

theorem inRange_eq_error {fault : AmountFault} {n : Int}
    (h : ¬ (IntegerRange.signed 32).Holds n) : inRange fault n = .error fault := if_neg h

theorem Counts.foldWeeks_eq {c : Counts} (h : c.DaysFit) :
    c.foldWeeks = .ok ⟨c.years, c.months, c.allDays⟩ := by
  have hweeks : inRange .dayOverflow (c.weeks * 7) = .ok c.daysOfWeeks := inRange_eq h.daysOfWeeks
  have hdays : inRange .dayOverflow (c.daysOfWeeks + c.days) = .ok c.allDays :=
    inRange_eq h.allDays
  simp only [foldWeeks, hweeks, hdays, bind, Except.bind, pure, Except.pure]

theorem Counts.foldWeeks_eq_error {c : Counts} (h : ¬ c.DaysFit) :
    c.foldWeeks = .error .dayOverflow := by
  by_cases hweeks : (IntegerRange.signed 32).Holds c.daysOfWeeks
  · have hdays : ¬ (IntegerRange.signed 32).Holds c.allDays := fun hdays => h ⟨hweeks, hdays⟩
    have hfrom : inRange .dayOverflow (c.weeks * 7) = .ok c.daysOfWeeks := inRange_eq hweeks
    have hall : inRange .dayOverflow (c.daysOfWeeks + c.days) = .error .dayOverflow :=
      inRange_eq_error hdays
    simp only [foldWeeks, hfrom, hall, bind, Except.bind]
  · have hfrom : inRange .dayOverflow (c.weeks * 7) = .error .dayOverflow :=
      inRange_eq_error hweeks
    simp only [foldWeeks, hfrom, bind, Except.bind]

theorem negate_eq {p : Period} (h : (⟨-p.years, -p.months, -p.days⟩ : Period).InRange) :
    p.negate = .ok ⟨-p.years, -p.months, -p.days⟩ := by
  simp only [negate, inRange_eq h.years, inRange_eq h.months, inRange_eq h.days, bind, Except.bind,
    pure, Except.pure]

theorem negate_eq_error {p : Period} (h : ¬ (⟨-p.years, -p.months, -p.days⟩ : Period).InRange) :
    p.negate = .error .periodOverflow := by
  have hall : ¬ ((IntegerRange.signed 32).Holds (-p.years) ∧
      (IntegerRange.signed 32).Holds (-p.months) ∧ (IntegerRange.signed 32).Holds (-p.days)) :=
    fun ⟨hyears, hmonths, hdays⟩ => h ⟨hyears, hmonths, hdays⟩
  unfold negate inRange
  split
  · split
    · split
      · exact absurd ⟨by assumption, by assumption, by assumption⟩ hall
      · rfl
    · rfl
  · rfl

theorem Counts.InRange.finish_eq {c : Counts} (h : c.InRange) (negative : Bool) :
    (c.DaysFit → (c.signed negative).InRange →
        c.finish negative = .ok (c.signed negative)) ∧
      (¬ c.DaysFit → c.finish negative = .error .dayOverflow) ∧
      (c.DaysFit → ¬ (c.signed negative).InRange →
        c.finish negative = .error .periodOverflow) := by
  refine ⟨fun hdays hsigned => ?_, fun hdays => ?_, fun hdays hsigned => ?_⟩
  · rw [finish, Counts.foldWeeks_eq hdays]
    cases negative with
    | false => rfl
    | true => exact negate_eq hsigned
  · rw [finish, Counts.foldWeeks_eq_error hdays]
    rfl
  · rw [finish, Counts.foldWeeks_eq hdays]
    cases negative with
    | false => exact absurd ⟨h.years, h.months, hdays.allDays⟩ hsigned
    | true => exact negate_eq_error hsigned

/-! ## The theorem -/

/-- The text of a period is read as the period. A text is read just where it writes counts that fit
into 32 bits all the way, and as those counts; any other text that writes counts is refused. -/
theorem read_eq_iff_writes :
    (∀ p : Period, p.InRange → read p.text = .ok p) ∧
      (∀ s p, read s = .ok p ↔ ∃ negative counts, Writes negative counts s ∧ counts.DaysFit ∧
        (counts.signed negative).InRange ∧ p = counts.signed negative) ∧
      ∀ s negative counts, Writes negative counts s →
        (¬ counts.DaysFit → read s = .error .dayOverflow) ∧
          (counts.DaysFit → ¬ (counts.signed negative).InRange →
            read s = .error .periodOverflow) := by
  refine ⟨fun p hp => read_text hp, fun s p => ⟨fun h => ?_, ?_⟩, fun s negative counts h => ?_⟩
  · obtain ⟨negative, counts, hwrites⟩ := exists_writes_of_read h
    obtain ⟨hok, hdays, hsign⟩ := hwrites.inRange.finish_eq negative
    rw [read_of_writes hwrites] at h
    have hfit : counts.DaysFit := by
      by_contra hfit
      rw [hdays hfit] at h
      cases h
    have hsigned : (counts.signed negative).InRange := by
      by_contra hsigned
      rw [hsign hfit hsigned] at h
      cases h
    rw [hok hfit hsigned] at h
    exact ⟨negative, counts, hwrites, hfit, hsigned, (Except.ok.inj h).symm⟩
  · rintro ⟨negative, counts, hwrites, hfit, hsigned, rfl⟩
    rw [read_of_writes hwrites]
    exact (hwrites.inRange.finish_eq negative).1 hfit hsigned
  · rw [read_of_writes h]
    exact (h.inRange.finish_eq negative).2

theorem writes_fortnight : Writes true ⟨1, 0, 2, -3⟩ "-P1Y2w-3D".toList := by
  have hyears : IsWhole 32 ['1'] 1 := .mk .none rfl (by decide)
  have hweeks : IsWhole 32 ['2'] 2 := .mk .none rfl (by decide)
  have hdays : IsWhole 32 ['-', '3'] (-3) := .mk .minus rfl (by decide)
  exact .mk (.mk .minus (.inl rfl))
    (.present hyears rfl (.absent (.present hweeks rfl (.present hdays rfl .nil)))) nofun

theorem writes_longWeeks : Writes false ⟨0, 0, 400000000, 0⟩ "P400000000W".toList := by
  have hweeks : IsWhole 32 "400000000".toList 400000000 := .mk .none rfl (by decide)
  exact .mk (.mk .none (.inl rfl)) (.absent (.absent (.present hweeks rfl (.absent .nil)))) nofun

theorem writes_leastYears : Writes true ⟨-2147483648, 0, 0, 0⟩ "-P-2147483648Y".toList := by
  have hyears : IsWhole 32 "-2147483648".toList (-2147483648) := .mk .minus rfl (by decide)
  exact .mk (.mk .minus (.inl rfl)) (.present hyears rfl (.absent (.absent (.absent .nil)))) nofun

theorem fortnight_read :
    read (text ⟨1, -2, 3⟩) = .ok ⟨1, -2, 3⟩ ∧
      read "-P1Y2w-3D".toList = .ok ⟨-1, 0, -11⟩ ∧
      read "P400000000W".toList = .error .dayOverflow ∧
      read "-P-2147483648Y".toList = .error .periodOverflow := by
  obtain ⟨hback, hread, hrefused⟩ := read_eq_iff_writes
  refine ⟨hback _ ⟨by decide, by decide, by decide⟩, (hread _ _).mpr ?_, ?_, ?_⟩
  · exact ⟨true, _, writes_fortnight, ⟨by decide, by decide⟩, ⟨by decide, by decide, by decide⟩,
      rfl⟩
  · exact (hrefused _ _ _ writes_longWeeks).1 fun h => absurd h.daysOfWeeks (by decide)
  · exact (hrefused _ _ _ writes_leastYears).2 ⟨by decide, by decide⟩
      fun h => absurd h.years (by decide)

end Period

end RecordFilter.Calendar
