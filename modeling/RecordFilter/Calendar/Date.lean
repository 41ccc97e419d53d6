import RecordFilter.Text.Digit

/-!
# Dates

The proleptic Gregorian calendar from year -9999 to year 9999. Stepping by a day stops at both ends
of the calendar. The day number puts a date on the line of all days, where differences between
moments are counted.
-/

namespace RecordFilter.Calendar

open RecordFilter.Text

def isLeap (year : Int) : Bool :=
  year.emod 4 == 0 && (year.emod 100 != 0 || year.emod 400 == 0)

/-- The number of days of a month, and none for a number that is no month. -/
def monthLength (year : Int) (month : Nat) : Nat :=
  match month with
  | 1 | 3 | 5 | 7 | 8 | 10 | 12 => 31
  | 4 | 6 | 9 | 11 => 30
  | 2 => if isLeap year then 29 else 28
  | _ => 0

/-- The year is in the calendar and the day exists. -/
def ValidDate (year : Int) (month day : Nat) : Prop :=
  -9999 ≤ year ∧ year ≤ 9999 ∧ 1 ≤ day ∧ day ≤ monthLength year month

instance (year : Int) (month day : Nat) : Decidable (ValidDate year month day) :=
  inferInstanceAs (Decidable (_ ∧ _))

structure Date where
  year : Int
  month : Nat
  day : Nat
  valid : ValidDate year month day
  deriving DecidableEq, Repr

namespace Date

def of? (year : Int) (month day : Nat) : Option Date :=
  if h : ValidDate year month day then some ⟨year, month, day, h⟩ else none

theorem of?_eq_some_iff {year : Int} {month day : Nat} {d : Date} :
    of? year month day = some d ↔ d.year = year ∧ d.month = month ∧ d.day = day := by
  unfold of?
  constructor
  · intro h
    split at h
    · cases h; exact ⟨rfl, rfl, rfl⟩
    · cases h
  · rintro ⟨rfl, rfl, rfl⟩
    rw [dif_pos d.valid]

/-! ## Order -/

/-- A number that grows from each date to the next. It leaves room for 31 days in every month. -/
def rank (d : Date) : Int := (d.year * 12 + d.month) * 31 + d.day

def compare (a b : Date) : Ordering := Ord.compare a.rank b.rank

def le (a b : Date) : Bool := a.rank ≤ b.rank

/-! ## Stepping -/

/-- The day after: later in the month, or in the next month, or in the next year. -/
def next? (d : Date) : Option Date :=
  ((of? d.year d.month (d.day + 1)).or (of? d.year (d.month + 1) 1)).or (of? (d.year + 1) 1 1)

/-- The day before: earlier in the month, or at the end of the month or the year before. -/
def previous? (d : Date) : Option Date :=
  let month := d.month - 1
  ((of? d.year d.month (d.day - 1)).or (of? d.year month (monthLength d.year month))).or
    (of? (d.year - 1) 12 31)

/-- The last day of its month. -/
def isMonthEnd (d : Date) : Bool := d.day == monthLength d.year d.month

/-! ## Day numbers

A year is counted from its March, so that the leap day is its last day.
-/

/-- The days from 1 January 1970. -/
def dayNumber (d : Date) : Int :=
  let year := if d.month ≤ 2 then d.year - 1 else d.year
  let monthFromMarch : Int := if d.month ≤ 2 then d.month + 9 else d.month - 3
  let dayOfYear := (153 * monthFromMarch + 2) / 5 + d.day - 1
  365 * year + year.fdiv 4 - year.fdiv 100 + year.fdiv 400 + dayOfYear - 719468

/-- The date with the given day number. A cycle of 400 years has 146097 days. -/
def ofDayNumber? (n : Int) : Option Date :=
  let shifted := n + 719468
  let cycle := shifted.fdiv 146097
  let dayOfCycle := shifted.fmod 146097
  let yearOfCycle :=
    (dayOfCycle - dayOfCycle / 1460 + dayOfCycle / 36524 - dayOfCycle / 146096) / 365
  let dayOfYear := dayOfCycle - (365 * yearOfCycle + yearOfCycle / 4 - yearOfCycle / 100)
  let monthFromMarch := (5 * dayOfYear + 2) / 153
  let day := dayOfYear - (153 * monthFromMarch + 2) / 5 + 1
  let month := if monthFromMarch < 10 then monthFromMarch + 3 else monthFromMarch - 9
  of? (yearOfCycle + cycle * 400 + if month ≤ 2 then 1 else 0) month.toNat day.toNat

/-! ## Writing -/

/-- A year has four digits, behind a minus sign where it is negative. -/
def yearText (year : Int) : List Char :=
  (if year < 0 then ['-'] else []) ++ padded 4 year.natAbs

def text (d : Date) : List Char :=
  yearText d.year ++ '-' :: padded 2 d.month ++ '-' :: padded 2 d.day

end Date

end RecordFilter.Calendar
