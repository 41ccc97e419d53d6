import RecordFilter.Calendar.Date

/-!
# Facts about dates

What it means for the numbers of a date that the day exists, and what steps from day to day do to
the day number.
-/

namespace RecordFilter.Calendar

theorem monthLength_le (year : Int) (month : Nat) : monthLength year month ≤ 31 := by
  unfold monthLength
  repeat' split
  all_goals omega

theorem month_of_monthLength_pos {year : Int} {month : Nat} (h : 0 < monthLength year month) :
    1 ≤ month ∧ month ≤ 12 := by
  unfold monthLength at h
  split at h
  all_goals omega

theorem monthLength_pos {year : Int} {month : Nat} (h : 1 ≤ month ∧ month ≤ 12) :
    0 < monthLength year month := by
  unfold monthLength
  split
  case h_13 => simp_all; omega
  all_goals (repeat' split) <;> decide

theorem isLeap_iff {year : Int} :
    isLeap year = true ↔ year % 4 = 0 ∧ (year % 100 ≠ 0 ∨ year % 400 = 0) := by
  unfold isLeap
  rw [show year.emod 4 = year % 4 from rfl, show year.emod 100 = year % 100 from rfl,
    show year.emod 400 = year % 400 from rfl]
  simp

/-- Counted from March, the days before a month follow a line. -/
theorem monthLength_from_march (year : Int) {month : Nat} (h : 3 ≤ month ∧ month < 12) :
    (monthLength year month : Int) =
      (153 * (((month + 1 : Nat) : Int) - 3) + 2) / 5 - (153 * ((month : Int) - 3) + 2) / 5 := by
  obtain rfl | rfl | rfl | rfl | rfl | rfl | rfl | rfl | rfl : month = 3 ∨ month = 4 ∨ month = 5 ∨
    month = 6 ∨ month = 7 ∨ month = 8 ∨ month = 9 ∨ month = 10 ∨ month = 11 := by omega
  all_goals rfl

theorem monthLength_february (year : Int) : (monthLength year 2 : Int) =
    if year % 4 = 0 ∧ (year % 100 ≠ 0 ∨ year % 400 = 0) then 29 else 28 := by
  simp only [monthLength, isLeap_iff]
  split <;> rfl

namespace Date

section

variable (d : Date)

theorem year_bounds : -9999 ≤ d.year ∧ d.year ≤ 9999 := ⟨d.valid.1, d.valid.2.1⟩

theorem month_bounds : 1 ≤ d.month ∧ d.month ≤ 12 :=
  month_of_monthLength_pos (Nat.lt_of_lt_of_le d.valid.2.2.1 d.valid.2.2.2)

theorem day_bounds : 1 ≤ d.day ∧ d.day ≤ 31 :=
  ⟨d.valid.2.2.1, Nat.le_trans d.valid.2.2.2 (monthLength_le d.year d.month)⟩

end

/-! ## Stepping -/

theorem of?_eq_none_iff {year : Int} {month day : Nat} :
    of? year month day = none ↔ ¬ ValidDate year month day := by
  simp [of?]

theorem eq_iff {d e : Date} : d = e ↔ d.year = e.year ∧ d.month = e.month ∧ d.day = e.day := by
  cases d
  cases e
  simp

/-- The first day of the calendar. -/
def earliest : Date := ⟨-9999, 1, 1, by decide⟩

theorem validDate_latest : ValidDate 9999 12 31 := by decide

/-- The last day of the calendar. -/
def latest : Date := ⟨9999, 12, 31, validDate_latest⟩

theorem next?_cases {d e : Date} (h : d.next? = some e) :
    (e.year = d.year ∧ e.month = d.month ∧ e.day = d.day + 1) ∨
    (d.day = monthLength d.year d.month ∧ d.month < 12 ∧
      e.year = d.year ∧ e.month = d.month + 1 ∧ e.day = 1) ∨
    (d.day = monthLength d.year d.month ∧ d.month = 12 ∧
      e.year = d.year + 1 ∧ e.month = 1 ∧ e.day = 1) := by
  have hvalid := d.valid
  have hmonth := d.month_bounds
  rw [next?, Option.or_eq_some_iff, Option.or_eq_some_iff, Option.or_eq_none_iff] at h
  rcases h with (h | ⟨hsame, h⟩) | ⟨⟨hsame, hnext⟩, h⟩
  · exact .inl (of?_eq_some_iff.mp h)
  · rw [of?_eq_none_iff] at hsame
    have he := of?_eq_some_iff.mp h
    have hmonth' := e.month_bounds
    unfold ValidDate at *
    exact .inr (.inl ⟨by omega, by omega, he⟩)
  · rw [of?_eq_none_iff] at hsame hnext
    have hpos := @monthLength_pos d.year (d.month + 1)
    unfold ValidDate at *
    exact .inr (.inr ⟨by omega, by omega, of?_eq_some_iff.mp h⟩)

theorem next?_eq_none_iff {d : Date} : d.next? = none ↔ d = latest := by
  have hvalid := d.valid
  have hmonth := d.month_bounds
  have hday := d.day_bounds
  have hpos := @monthLength_pos d.year (d.month + 1)
  have hjan : monthLength (d.year + 1) 1 = 31 := rfl
  rw [eq_iff]
  simp only [next?, Option.or_eq_none_iff, of?_eq_none_iff, latest]
  unfold ValidDate at *
  constructor
  · rintro ⟨⟨hsame, hnext⟩, hyear⟩
    have h12 : d.month = 12 := by omega
    have hdec : monthLength d.year d.month = 31 := by
      rw [h12]
      rfl
    omega
  · rintro ⟨hy, h12, h31⟩
    have hdec : monthLength d.year d.month = 31 := by
      rw [h12]
      rfl
    have hnone : monthLength d.year (d.month + 1) = 0 := by
      rw [h12]
      rfl
    omega

theorem next?_of_previous? {d e : Date} (h : d.previous? = some e) : e.next? = some d := by
  have hvalid := d.valid
  have hmonth := d.month_bounds
  have he := e.valid
  have hd : ∀ {y m n}, d.year = y → d.month = m → d.day = n → of? y m n = some d :=
    fun hy hm hn => of?_eq_some_iff.mpr ⟨hy, hm, hn⟩
  simp only [previous?, Option.or_eq_some_iff, Option.or_eq_none_iff] at h
  -- Whichever step goes back, the steps that `next?` tries before the same one forward fail.
  rcases h with (h | ⟨hsame, h⟩) | ⟨⟨hsame, hprev⟩, h⟩
  · obtain ⟨hy, hm, hn⟩ := of?_eq_some_iff.mp h
    unfold ValidDate at *
    rw [next?, hd (by omega) (by omega) (by omega), Option.some_or, Option.some_or]
  · rw [of?_eq_none_iff] at hsame
    obtain ⟨hy, hm, hn⟩ := of?_eq_some_iff.mp h
    have hend : of? e.year e.month (e.day + 1) = none := by
      rw [of?_eq_none_iff, hn, ← hy, ← hm]
      unfold ValidDate
      omega
    unfold ValidDate at *
    rw [next?, hend, hd (by omega) (by omega) (by omega)]
    rfl
  · rw [of?_eq_none_iff] at hsame hprev
    obtain ⟨hy, hm, hn⟩ := of?_eq_some_iff.mp h
    have hpos := @monthLength_pos d.year (d.month - 1)
    have hend : of? e.year e.month (e.day + 1) = none := by
      rw [of?_eq_none_iff, hn, hm]
      exact fun h => absurd (Nat.le_trans h.2.2.2 (monthLength_le _ _)) (by decide)
    have hyearEnd : of? e.year (e.month + 1) 1 = none := by
      rw [of?_eq_none_iff, hm]
      exact fun h => absurd (month_of_monthLength_pos h.2.2.2).2 (by decide)
    unfold ValidDate at *
    rw [next?, hend, hyearEnd, hd (by omega) (by omega) (by omega)]
    rfl

theorem previous?_eq_none_iff {d : Date} : d.previous? = none ↔ d = earliest := by
  have hvalid := d.valid
  have hmonth := d.month_bounds
  have hpos := @monthLength_pos d.year (d.month - 1)
  have hdec : monthLength (d.year - 1) 12 = 31 := rfl
  rw [eq_iff]
  simp only [previous?, Option.or_eq_none_iff, of?_eq_none_iff, earliest]
  unfold ValidDate at *
  constructor
  · rintro ⟨⟨hsame, hprev⟩, hyear⟩
    omega
  · rintro ⟨hy, h1, hd⟩
    have hnone : monthLength d.year (d.month - 1) = 0 := by
      rw [h1]
      rfl
    omega

/-! ## Day numbers -/

theorem dayNumber_eq (d : Date) : d.dayNumber =
    (if d.month ≤ 2 then
      365 * (d.year - 1) + (d.year - 1) / 4 - (d.year - 1) / 100 + (d.year - 1) / 400 +
        ((153 * (d.month + 9) + 2) / 5 + d.day - 1)
    else
      365 * d.year + d.year / 4 - d.year / 100 + d.year / 400 +
        ((153 * (d.month - 3) + 2) / 5 + d.day - 1)) - 719468 := by
  unfold dayNumber
  simp only [Int.fdiv_eq_ediv_of_nonneg _ (show (0 : Int) ≤ 4 by decide),
    Int.fdiv_eq_ediv_of_nonneg _ (show (0 : Int) ≤ 100 by decide),
    Int.fdiv_eq_ediv_of_nonneg _ (show (0 : Int) ≤ 400 by decide)]
  split <;> rfl

theorem dayNumber_next {d e : Date} (h : d.next? = some e) : e.dayNumber = d.dayNumber + 1 := by
  rw [dayNumber_eq, dayNumber_eq]
  rcases next?_cases h with ⟨hy, hm, hd⟩ | ⟨hlast, h12, hy, hm, hd⟩ | ⟨hlast, h12, hy, hm, hd⟩
  · rw [hy, hm, hd]
    omega
  · have hmonth := d.month_bounds
    rw [hy, hm, hd]
    -- January and February count with the year before, so the end of February has the leap day.
    obtain h1 | h2 | h3 : d.month = 1 ∨ d.month = 2 ∨ 3 ≤ d.month := by omega
    · have hlength : monthLength d.year 1 = 31 := rfl
      rw [h1] at hlast ⊢
      omega
    · have hlength := monthLength_february d.year
      rw [h2] at hlast ⊢
      split at hlength <;> omega
    · have hlength := monthLength_from_march d.year ⟨h3, h12⟩
      omega
  · rw [hy, hm, hd, hlast, h12]
    simp only [monthLength]
    omega

theorem dayNumber_previous {d e : Date} (h : d.previous? = some e) :
    e.dayNumber = d.dayNumber - 1 := by
  have hnext := dayNumber_next (next?_of_previous? h)
  omega

/-- 1 January of the year 0. -/
def startOfYearZero : Date := ⟨0, 1, 1, by decide⟩

theorem dayNumber_le_latest (d : Date) : d.dayNumber ≤ latest.dayNumber := by
  have hyear := d.year_bounds
  have hmonth := d.month_bounds
  have hday := d.day_bounds
  rw [d.dayNumber_eq, show latest.dayNumber = 2932896 from rfl]
  split <;> omega

theorem earliest_le_dayNumber (d : Date) : earliest.dayNumber ≤ d.dayNumber := by
  have hyear := d.year_bounds
  have hmonth := d.month_bounds
  have hday := d.day_bounds
  rw [d.dayNumber_eq, show earliest.dayNumber = -4371587 from rfl]
  split <;> omega

theorem eq_earliest_iff {d : Date} : d = earliest ↔ d.dayNumber = earliest.dayNumber := by
  constructor
  · rintro rfl
    rfl
  · intro hnumber
    rw [← previous?_eq_none_iff]
    refine Option.eq_none_iff_forall_ne_some.mpr fun e he => ?_
    have hprevious := dayNumber_previous he
    have hfirst := e.earliest_le_dayNumber
    omega

theorem year_nonneg_iff {d : Date} : 0 ≤ d.year ↔ startOfYearZero.dayNumber ≤ d.dayNumber := by
  have hmonth := d.month_bounds
  have hday := d.day_bounds
  rw [d.dayNumber_eq, show startOfYearZero.dayNumber = -719528 from rfl]
  split <;> omega

end Date

end RecordFilter.Calendar
