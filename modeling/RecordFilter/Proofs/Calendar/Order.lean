import RecordFilter.Calendar.DateTime
import RecordFilter.Proofs.Calendar.Date

/-!
# The order of dates

Dates are in order by year, month and day, and date-times by date and time of day. Ranks follow this
order, and the day after a date is the first one behind it. Instants are in order as moments.
-/

namespace RecordFilter.Calendar

namespace Date

instance : LT Date :=
  ⟨fun a b => a.year < b.year ∨
    a.year = b.year ∧ (a.month < b.month ∨ a.month = b.month ∧ a.day < b.day)⟩

instance : LE Date := ⟨fun a b => a < b ∨ a = b⟩

variable {a b d e x : Date}

theorem lt_iff : a < b ↔ a.year < b.year ∨
    a.year = b.year ∧ (a.month < b.month ∨ a.month = b.month ∧ a.day < b.day) :=
  Iff.rfl

theorem le_iff : a ≤ b ↔ a < b ∨ a = b := Iff.rfl

theorem lt_iff_rank : a < b ↔ a.rank < b.rank := by
  have ha := a.month_bounds
  have hb := b.month_bounds
  have ha' := a.day_bounds
  have hb' := b.day_bounds
  rw [lt_iff, rank, rank]
  omega

theorem eq_iff_rank : a = b ↔ a.rank = b.rank := by
  have ha := a.month_bounds
  have hb := b.month_bounds
  have ha' := a.day_bounds
  have hb' := b.day_bounds
  rw [eq_iff, rank, rank]
  omega

theorem le_iff_rank : a ≤ b ↔ a.rank ≤ b.rank := by
  rw [le_iff, lt_iff_rank, eq_iff_rank]
  omega

theorem le_refl (a : Date) : a ≤ a := .inr rfl

theorem le_trans {c : Date} (hab : a ≤ b) (hbc : b ≤ c) : a ≤ c := by
  rw [le_iff_rank] at hab hbc ⊢
  exact Int.le_trans hab hbc

theorem ne_of_lt (h : a < b) : a ≠ b := by
  rw [lt_iff_rank] at h
  rw [ne_eq, eq_iff_rank]
  omega

theorem le_eq_true_iff : a.le b = true ↔ a ≤ b := by
  rw [le, decide_eq_true_eq, le_iff_rank]

theorem not_lt : ¬ a < b ↔ b ≤ a := by
  rw [lt_iff_rank, le_iff_rank, Int.not_lt]

theorem not_le : ¬ a ≤ b ↔ b < a := by
  rw [le_iff_rank, lt_iff_rank, Int.not_le]

/-! ## Steps -/

theorem not_latest_lt (x : Date) : ¬ latest < x := by
  have hyear := x.year_bounds
  have hmonth := x.month_bounds
  have hday := x.day_bounds
  rw [lt_iff]
  simp only [latest]
  omega

theorem not_lt_earliest (x : Date) : ¬ x < earliest := by
  have hyear := x.year_bounds
  have hmonth := x.month_bounds
  have hday := x.day_bounds
  rw [lt_iff]
  simp only [earliest]
  omega

theorem le_iff_of_next? (h : d.next? = some e) : e ≤ x ↔ d < x := by
  have hmonth := x.month_bounds
  have hvalid := x.valid
  -- A month ends with its last day, so a later day of that month would not exist.
  have hlast : x.year = d.year → x.month = d.month → x.day ≤ monthLength d.year d.month := by
    intro hy hm
    rw [← hy, ← hm]
    exact hvalid.2.2.2
  have hfirst := hvalid.2.2.1
  have hde := next?_cases h
  rw [le_iff, lt_iff, lt_iff, eq_iff]
  omega

theorem lt_of_next? (h : d.next? = some e) : d < e := (le_iff_of_next? h).mp (le_refl e)

theorem le_iff_of_previous? (h : d.previous? = some e) : x ≤ e ↔ x < d := by
  rw [← not_lt, ← le_iff_of_next? (next?_of_previous? h), not_le]

end Date

namespace DateTime

instance : LT DateTime :=
  ⟨fun s t => s.date < t.date ∨ s.date = t.date ∧ s.time.nanos < t.time.nanos⟩

instance : LE DateTime :=
  ⟨fun s t => s.date < t.date ∨ s.date = t.date ∧ s.time.nanos ≤ t.time.nanos⟩

variable {s t : DateTime}

theorem le_iff : s ≤ t ↔ s.date < t.date ∨ s.date = t.date ∧ s.time.nanos ≤ t.time.nanos := Iff.rfl

theorem le_iff_rank : s ≤ t ↔ s.rank ≤ t.rank := by
  have hs := s.time.nanos_lt
  have ht := t.time.nanos_lt
  have hday : nanosPerDay = 86400000000000 := rfl
  rw [le_iff, Date.lt_iff_rank, Date.eq_iff_rank, rank, rank, hday]
  omega

theorem le_eq_true_iff : s.le t = true ↔ s ≤ t := by
  rw [le, decide_eq_true_eq, le_iff_rank]

theorem le_refl (t : DateTime) : t ≤ t := .inr ⟨rfl, Nat.le_refl _⟩

theorem le_trans {u : DateTime} (hst : s ≤ t) (htu : t ≤ u) : s ≤ u := by
  rw [le_iff_rank] at hst htu ⊢
  exact Int.le_trans hst htu

theorem le_of_nextDay? (h : s.nextDay? = some t) : s ≤ t := by
  obtain ⟨d, hd, rfl⟩ := Option.map_eq_some_iff.mp h
  exact .inl (Date.lt_of_next? hd)

theorem le_of_previousDay? (h : s.previousDay? = some t) : t ≤ s := by
  obtain ⟨d, hd, rfl⟩ := Option.map_eq_some_iff.mp h
  exact .inl (Date.lt_of_next? (Date.next?_of_previous? hd))

end DateTime

/-! ## Instants -/

namespace Instant

/-- Instants are in order by the moments that they are, however they read. -/
instance : LE Instant := ⟨fun t u => t.moment ≤ u.moment⟩

variable {t u : Instant}

theorem le_iff_moment : t ≤ u ↔ t.moment ≤ u.moment := Iff.rfl

theorem le_eq_true_iff : t.le u = true ↔ t ≤ u := decide_eq_true_iff

theorem le_refl (t : Instant) : t ≤ t := Int.le_refl t.moment

theorem le_trans {v : Instant} (htu : t ≤ u) (huv : u ≤ v) : t ≤ v := Int.le_trans htu huv

theorem moment_nextDay? (h : t.nextDay? = some u) : u.moment = t.moment + nanosPerDay := by
  obtain ⟨reading, hreading, rfl⟩ := Option.map_eq_some_iff.mp h
  obtain ⟨d, hd, rfl⟩ := Option.map_eq_some_iff.mp hreading
  simp only [moment, DateTime.moment, Date.dayNumber_next hd, Int.add_mul, Int.one_mul]
  omega

theorem moment_previousDay? (h : t.previousDay? = some u) :
    u.moment = t.moment - nanosPerDay := by
  obtain ⟨reading, hreading, rfl⟩ := Option.map_eq_some_iff.mp h
  obtain ⟨d, hd, rfl⟩ := Option.map_eq_some_iff.mp hreading
  simp only [moment, DateTime.moment, Date.dayNumber_previous hd, Int.sub_mul, Int.one_mul]
  omega

theorem nextDay?_eq_none_iff : t.nextDay? = none ↔ t.reading.date = .latest := by
  rw [nextDay?, Option.map_eq_none_iff, DateTime.nextDay?, Option.map_eq_none_iff,
    Date.next?_eq_none_iff]

theorem previousDay?_eq_none_iff : t.previousDay? = none ↔ t.reading.date = .earliest := by
  rw [previousDay?, Option.map_eq_none_iff, DateTime.previousDay?, Option.map_eq_none_iff,
    Date.previous?_eq_none_iff]

end Instant

end RecordFilter.Calendar
