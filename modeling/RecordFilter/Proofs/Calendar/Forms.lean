import RecordFilter.Proofs.Calendar.Format

/-!
# The forms of dates and date-times

A date has four forms and a date-time three fronts with clocks of different precision. The formats
are tried in a fixed order. One that comes before the right one does not read the whole text, apart
from a single pair: the day in front of the month is tried before the month in front of the day.
-/

namespace RecordFilter.Calendar

open RecordFilter.Text

/-! ## The forms -/

namespace Date

/-- Two numbers and the year, with the mark between them. -/
def marked (mark : Char) (first second : Nat) (year : Int) : List Char :=
  padded 2 first ++ mark :: (padded 2 second ++ mark :: padded 4 year.natAbs)

def dayFirst (mark : Char) (d : Date) : List Char := marked mark d.day d.month d.year

def monthFirst (mark : Char) (d : Date) : List Char := marked mark d.month d.day d.year

end Date

namespace TimeOfDay

def clock (t : TimeOfDay) : List Char := padded 2 t.hour ++ ':' :: padded 2 t.minute

def clockSeconds (t : TimeOfDay) : List Char := t.clock ++ ':' :: padded 2 t.second

/-- The text gives the time of day up to the minutes or the seconds, and what it leaves out is
zero. -/
inductive IsClock (t : TimeOfDay) : List Char → Prop
  | minutes (hsecond : t.second = 0) (hnanosecond : t.nanosecond = 0) : IsClock t t.clock
  | seconds (hnanosecond : t.nanosecond = 0) : IsClock t t.clockSeconds

/-- The text gives the time of day, possibly with places of a second. The first nine of them
count. -/
inductive IsTime (t : TimeOfDay) : List Char → Prop
  | clock {s : List Char} (h : IsClock t s) : IsTime t s
  | places {places : List Char} {n : Nat} (hsome : places ≠ [])
      (hdigits : ∀ c ∈ places, isDigit c = true) (hn : digitsFrom 0 (places.take 9) = some n)
      (hnanosecond : t.nanosecond = n * Nat.pow 10 (9 - places.length)) :
      IsTime t (t.clockSeconds ++ '.' :: places)

end TimeOfDay

/-! ## Dates -/

theorem takeDigits_eq_none {count : Nat} {s : List Char} {c : Char} (hc : c ∈ s.take count)
    (hdigit : isDigit c = false) : takeDigits count s = none := by
  unfold takeDigits
  split
  · cases hn : digitsFrom 0 (s.take count) with
    | none => rfl
    | some n => cases (isDigit_of_digitsFrom hn c hc).symm.trans hdigit
  · rfl

theorem read_year_eq_none {n : Nat} (hn : n < 100) {mark : Char} (hmark : isDigit mark = false)
    (r : Reading) (s : List Char) : Part.year.read r (padded 2 n ++ mark :: s) = none := by
  have hlength : (padded 2 n).length = 2 := length_padded (by decide) hn
  have hnone : takeDigits 4 (padded 2 n ++ mark :: s) = none := by
    refine takeDigits_eq_none ?_ hmark
    rw [List.take_append, hlength]
    exact List.mem_append_right _ List.mem_cons_self
  obtain ⟨c, rest, hcons, hc⟩ := exists_padded_eq_cons 2 n
  rw [hcons] at hnone ⊢
  simp only [List.cons_append] at hnone ⊢
  rw [Part.read]
  · simp only [hnone, Option.map_none]
  · rintro t heq
    cases heq
    cases hc
  · rintro t heq
    cases heq
    cases hc

namespace Date

variable {d : Date} {mark : Char}

theorem day_lt (d : Date) : d.day < 100 := by
  have := d.day_bounds
  omega

theorem month_lt (d : Date) : d.month < 100 := by
  have := d.month_bounds
  omega

theorem readFront_day {n : Nat} (hn : n < 100) (ps : List Part) (r : Reading) (s : List Char) :
    readFront (.day :: ps) r (padded 2 n ++ s) = readFront ps { r with day := n } s := by
  refine readFront_of_read ?_ ps
  rw [Part.read, takeDigits_two hn, Option.map_some]

theorem readFront_month {n : Nat} (hn : n < 100) (ps : List Part) (r : Reading) (s : List Char) :
    readFront (.month :: ps) r (padded 2 n ++ s) = readFront ps { r with month := n } s := by
  refine readFront_of_read ?_ ps
  rw [Part.read, takeDigits_two hn, Option.map_some]

theorem readFront_year (hyear : 0 ≤ d.year) (ps : List Part) (r : Reading) (s : List Char) :
    readFront (.year :: ps) r (padded 4 d.year.natAbs ++ s) =
      readFront ps { r with year := d.year } s := by
  refine readFront_of_read ?_ ps
  have hread := read_yearText d.year_bounds r s
  rwa [yearText, if_neg (by omega), List.nil_append] at hread

theorem readFront_otherMark {c mark : Char} (h : c ≠ mark) (ps : List Part) (r : Reading)
    (s : List Char) : readFront (.mark mark :: ps) r (c :: s) = none := by
  rw [readFront, Part.read]
  simp only [if_neg h, Option.bind_none]

variable {first second : Nat} (hfirst : first < 100) (hsecond : second < 100)

include hfirst in
theorem readFront_yearMonthDay_eq_none (hmark : isDigit mark = false) (ps : List Part) (r : Reading)
    (s : List Char) :
    readFront (yearMonthDay ++ ps) r (marked mark first second d.year ++ s) = none := by
  rw [marked, List.append_assoc, List.cons_append, yearMonthDay, List.cons_append, readFront,
    read_year_eq_none hfirst hmark, Option.bind_none]

include hfirst hsecond

theorem readFront_dayMonthYear (mark : Char) (hyear : 0 ≤ d.year) (ps : List Part) (r : Reading)
    (s : List Char) :
    readFront ([.day, .mark mark, .month, .mark mark, .year] ++ ps) r
        (marked mark first second d.year ++ s) =
      readFront ps { r with year := d.year, month := second, day := first } s := by
  simp only [marked, List.append_assoc, List.cons_append, List.nil_append]
  rw [readFront_day hfirst, readFront_mark, readFront_month hsecond, readFront_mark,
    readFront_year hyear]

theorem readFront_monthDayYear (mark : Char) (hyear : 0 ≤ d.year) (ps : List Part) (r : Reading)
    (s : List Char) :
    readFront ([.month, .mark mark, .day, .mark mark, .year] ++ ps) r
        (marked mark first second d.year ++ s) =
      readFront ps { r with year := d.year, month := first, day := second } s := by
  simp only [marked, List.append_assoc, List.cons_append, List.nil_append]
  rw [readFront_month hfirst, readFront_mark, readFront_day hsecond, readFront_mark,
    readFront_year hyear]

theorem readWhole_dayMonthYear (hyear : 0 ≤ d.year) :
    readWhole [.day, .mark mark, .month, .mark mark, .year] (marked mark first second d.year) =
      some { year := d.year, month := second, day := first } := by
  have hread := readFront_dayMonthYear hfirst hsecond mark hyear [] {} []
  rw [List.append_nil, List.append_nil] at hread
  rw [readWhole, hread]
  rfl

theorem readWhole_monthDayYear (hyear : 0 ≤ d.year) :
    readWhole [.month, .mark mark, .day, .mark mark, .year] (marked mark first second d.year) =
      some { year := d.year, month := first, day := second } := by
  have hread := readFront_monthDayYear hfirst hsecond mark hyear [] {} []
  rw [List.append_nil, List.append_nil] at hread
  rw [readWhole, hread]
  rfl

omit hsecond

theorem readWhole_yearMonthDay (hmark : isDigit mark = false) :
    readWhole yearMonthDay (marked mark first second d.year) = none := by
  have hread : readFront (yearMonthDay ++ []) {} (marked mark first second d.year ++ []) = none :=
    readFront_yearMonthDay_eq_none hfirst hmark [] {} []
  rw [List.append_nil, List.append_nil] at hread
  rw [readWhole, hread, Option.bind_none]

theorem readWhole_otherMark {other : Char} (hother : mark ≠ other) (ps : List Part) :
    readWhole (.day :: .mark other :: ps) (marked mark first second d.year) = none ∧
      readWhole (.month :: .mark other :: ps) (marked mark first second d.year) = none := by
  constructor
  · rw [readWhole, marked, readFront_day hfirst, readFront_otherMark hother, Option.bind_none]
  · rw [readWhole, marked, readFront_month hfirst, readFront_otherMark hother, Option.bind_none]

include hsecond

theorem readDate?_dashed (hyear : 0 ≤ d.year) :
    readDate? (marked '-' first second d.year) = of? d.year second first := by
  have hother : ('-' : Char) ≠ '/' := by decide
  -- The year does not start the text, and two formats want slashes.
  rw [readDate?, dateFormats, daySlashMonth]
  simp only [List.findSome?_cons, readWhole_yearMonthDay hfirst (show isDigit '-' = false from rfl),
    (readWhole_otherMark hfirst hother _).1, (readWhole_otherMark hfirst hother _).2,
    readWhole_dayMonthYear hfirst hsecond hyear, Option.bind_none, Option.bind_some,
    Reading.date?, List.findSome?_nil]
  cases of? d.year second first <;> rfl

theorem readDate?_slashed (hyear : 0 ≤ d.year) :
    readDate? (marked '/' first second d.year) =
      (of? d.year second first).or (of? d.year first second) := by
  have hother : ('/' : Char) ≠ '-' := by decide
  rw [readDate?, dateFormats, daySlashMonth]
  simp only [List.findSome?_cons, readWhole_yearMonthDay hfirst (show isDigit '/' = false from rfl),
    (readWhole_otherMark hfirst hother _).1, readWhole_monthDayYear hfirst hsecond hyear,
    readWhole_dayMonthYear hfirst hsecond hyear, Option.bind_none, Option.bind_some,
    Reading.date?, List.findSome?_nil]
  cases of? d.year second first <;> cases of? d.year first second <;> rfl

omit hfirst hsecond

theorem of?_self (d : Date) : of? d.year d.month d.day = some d :=
  of?_eq_some_iff.mpr ⟨rfl, rfl, rfl⟩

theorem readDate?_dayFirst (hmark : mark = '/' ∨ mark = '-') (hyear : 0 ≤ d.year) :
    readDate? (d.dayFirst mark) = some d := by
  rcases hmark with rfl | rfl
  · rw [dayFirst, readDate?_slashed d.day_lt d.month_lt hyear, of?_self, Option.some_or]
  · rw [dayFirst, readDate?_dashed d.day_lt d.month_lt hyear, of?_self]

theorem validDate_exchanged (d : Date) : ValidDate d.year d.day d.month ↔ d.day ≤ 12 := by
  obtain ⟨hday, -⟩ := d.day_bounds
  obtain ⟨hmonth, hmonth'⟩ := d.month_bounds
  constructor
  · rintro ⟨-, -, -, hle⟩
    exact (month_of_monthLength_pos (Nat.lt_of_lt_of_le hmonth hle)).2
  · intro h
    -- Every month has the days up to the twenty-eighth.
    have hlong : 28 ≤ monthLength d.year d.day := by
      obtain h | h | h | h | h | h | h | h | h | h | h | h : d.day = 1 ∨ d.day = 2 ∨ d.day = 3 ∨
        d.day = 4 ∨ d.day = 5 ∨ d.day = 6 ∨ d.day = 7 ∨ d.day = 8 ∨ d.day = 9 ∨ d.day = 10 ∨
        d.day = 11 ∨ d.day = 12 := by omega
      all_goals
        rw [h, monthLength]
        first | decide | (split <;> decide)
    exact ⟨d.year_bounds.1, d.year_bounds.2, hmonth, by omega⟩

theorem exists_readDate?_monthFirst (hyear : 0 ≤ d.year) :
    ∃ d', readDate? (d.monthFirst '/') = some d' ∧ (d' = d ↔ 12 < d.day ∨ d.day = d.month) ∧
      (d' ≠ d → d'.year = d.year ∧ d'.month = d.day ∧ d'.day = d.month) := by
  rw [monthFirst, readDate?_slashed d.month_lt d.day_lt hyear, of?_self]
  by_cases h : d.day ≤ 12
  · have hvalid := d.validDate_exchanged.mpr h
    refine ⟨⟨d.year, d.day, d.month, hvalid⟩, ?_, ⟨fun heq => ?_, ?_⟩, fun _ => ⟨rfl, rfl, rfl⟩⟩
    · rw [of?, dif_pos hvalid, Option.some_or]
    · exact .inr (congrArg month heq)
    · rintro (hlate | hsame)
      · omega
      · obtain ⟨year, month, day, _⟩ := d
        cases hsame
        rfl
  · refine ⟨d, ?_, iff_of_true rfl (.inl (by omega)), fun hne => absurd rfl hne⟩
    rw [of?, dif_neg (mt d.validDate_exchanged.mp h), Option.none_or]

end Date

/-! ## Clocks -/

/-- A date that was read, and no time of day yet. -/
def Reading.ofDate (d : Date) : Reading := { year := d.year, month := d.month, day := d.day }

namespace TimeOfDay

variable (t : TimeOfDay)

theorem readFront_clock (ps : List Part) (r : Reading) (s : List Char) :
    readFront (hourMinute ++ ps) r (t.clock ++ s) =
      readFront ps { r with hour := t.hour, minute := t.minute } s := by
  obtain ⟨hhour, hminute, -, -⟩ := t.valid
  rw [clock, List.append_assoc, List.cons_append]
  simp only [hourMinute, List.cons_append, List.nil_append, readFront, Part.read,
    takeDigits_two (show t.hour < 100 by omega), takeDigits_two (show t.minute < 100 by omega),
    Option.map_some, Option.bind_some, if_true]

theorem readFront_clockSeconds (ps : List Part) (r : Reading) (s : List Char) :
    readFront (hourMinuteSecond ++ ps) r (t.clockSeconds ++ s) =
      readFront ps { r with hour := t.hour, minute := t.minute, second := t.second } s := by
  obtain ⟨-, -, hsecond, -⟩ := t.valid
  rw [clockSeconds, hourMinuteSecond, List.append_assoc, List.append_assoc, readFront_clock]
  simp only [List.cons_append, List.nil_append, readFront, Part.read,
    takeDigits_two (show t.second < 100 by omega), Option.map_some, Option.bind_some, if_true]

theorem readEnd_clock (r : Reading) :
    readEnd hourMinute r t.clock = some { r with hour := t.hour, minute := t.minute } ∧
      readEnd hourMinuteSecond r t.clock = none := by
  have hminute := t.readFront_clock [] r []
  have hsecond := t.readFront_clock [.mark ':', .second] r []
  rw [List.append_nil, List.append_nil] at hminute
  rw [List.append_nil] at hsecond
  constructor
  · rw [readEnd, hminute]
    rfl
  · rw [readEnd, hourMinuteSecond, hsecond]
    rfl

theorem readEnd_longer (r : Reading) (c : Char) (s : List Char) :
    readEnd hourMinute r (t.clock ++ c :: s) = none ∧
      readEnd hourMinuteSecond r (t.clockSeconds ++ c :: s) = none := by
  have hminute := t.readFront_clock [] r (c :: s)
  have hsecond := t.readFront_clockSeconds [] r (c :: s)
  rw [List.append_nil] at hminute hsecond
  constructor
  · rw [readEnd, hminute]
    rfl
  · rw [readEnd, hsecond]
    rfl

theorem readEnd_clockSeconds (r : Reading) :
    readEnd hourMinuteSecond r t.clockSeconds =
      some { r with hour := t.hour, minute := t.minute, second := t.second } := by
  have hsecond := t.readFront_clockSeconds [] r []
  rw [List.append_nil, List.append_nil] at hsecond
  rw [readEnd, hsecond]
  rfl

theorem fractionNanos_eq {places : List Char} {n : Nat}
    (hn : digitsFrom 0 (places.take 9) = some n) :
    fractionNanos places = n * Nat.pow 10 (9 - places.length) := by
  have hzeros : (List.replicate 9 '0').take (9 - places.length) =
      List.replicate (9 - places.length) '0' := by
    rw [List.take_replicate, Nat.min_eq_left (Nat.sub_le 9 _)]
  rw [fractionNanos, List.take_append, hzeros, digitsFrom_append, hn, Option.bind_some,
    digitsFrom_replicate, Option.getD_some]

theorem readEnd_places (r : Reading) {places : List Char} (hsome : places ≠ [])
    (hdigits : ∀ c ∈ places, isDigit c = true) :
    readEnd hourToFraction r (t.clockSeconds ++ '.' :: places) =
      some { r with
        hour := t.hour, minute := t.minute, second := t.second,
        nanosecond := fractionNanos places } := by
  have hread : ∀ r : Reading,
      Part.fraction.read r places = some ({ r with nanosecond := fractionNanos places }, []) := by
    intro r
    have hread := read_places hsome hdigits r (s := []) nofun
    rwa [List.append_nil] at hread
  rw [readEnd, hourToFraction, readFront_clockSeconds, readFront_mark, readFront_of_read (hread _)]
  rfl

end TimeOfDay

/-! ## Date-times -/

theorem dateTime?_eq (d : Date) (t : TimeOfDay) :
    ({ Reading.ofDate d with
      hour := t.hour, minute := t.minute, second := t.second,
      nanosecond := t.nanosecond } : Reading).dateTime? = some ⟨d, t⟩ := by
  simp only [Reading.dateTime?, Reading.date?, Reading.time?, Reading.ofDate, d.of?_self,
    t.of?_eq_some, Option.bind_some, Option.map_some]

/-- What is left of the text is read as the first of the clocks that reads all of it. -/
def readClock? (clocks : List (List Part)) (r : Reading) (s : List Char) : Option DateTime :=
  clocks.findSome? fun parts => (readEnd parts r s).bind Reading.dateTime?

variable (d : Date) {t : TimeOfDay} {s : List Char}

theorem TimeOfDay.IsClock.readClock? (h : t.IsClock s) :
    readClock? [hourMinuteSecond, hourMinute] (.ofDate d) s = some ⟨d, t⟩ ∧
      readClock? [hourMinute, hourMinuteSecond, hourToFraction] (.ofDate d) s = some ⟨d, t⟩ := by
  have htime := dateTime?_eq d t
  cases h with
  | minutes hsecond hnanosecond =>
    rw [hsecond, hnanosecond] at htime
    obtain ⟨hminute, hlonger⟩ := t.readEnd_clock (.ofDate d)
    have hread : (readEnd hourMinute (.ofDate d) t.clock).bind Reading.dateTime? =
        some ⟨d, t⟩ := by
      rw [hminute]
      exact htime
    simp only [Calendar.readClock?, List.findSome?_cons, hread, hlonger, Option.bind_none,
      and_self]
  | seconds hnanosecond =>
    rw [hnanosecond] at htime
    have hshorter : readEnd hourMinute (.ofDate d) t.clockSeconds = none :=
      (t.readEnd_longer (.ofDate d) ':' (padded 2 t.second)).1
    have hread : (readEnd hourMinuteSecond (.ofDate d) t.clockSeconds).bind Reading.dateTime? =
        some ⟨d, t⟩ := by
      rw [t.readEnd_clockSeconds (.ofDate d)]
      exact htime
    simp only [Calendar.readClock?, List.findSome?_cons, hread, hshorter, Option.bind_none,
      and_self]

theorem TimeOfDay.IsTime.readClock? (h : t.IsTime s) :
    readClock? [hourMinute, hourMinuteSecond, hourToFraction] (.ofDate d) s = some ⟨d, t⟩ := by
  cases h with
  | clock h => exact (h.readClock? d).2
  | @places places n hsome hdigits hn hnanosecond =>
    have htime := dateTime?_eq d t
    rw [hnanosecond, ← fractionNanos_eq hn] at htime
    have hminute : readEnd hourMinute (.ofDate d) (t.clockSeconds ++ '.' :: places) = none := by
      rw [clockSeconds, List.append_assoc, List.cons_append]
      exact (t.readEnd_longer (.ofDate d) ':' _).1
    have hsecond := (t.readEnd_longer (.ofDate d) '.' places).2
    have hread : (readEnd hourToFraction (.ofDate d) (t.clockSeconds ++ '.' :: places)).bind
        Reading.dateTime? = some ⟨d, t⟩ := by
      rw [t.readEnd_places (.ofDate d) hsome hdigits]
      exact htime
    simp only [Calendar.readClock?, List.findSome?_cons, hminute, hsecond, hread,
      Option.bind_none]

theorem readWhole_text (mark : Char) (parts : List Part) (s : List Char) :
    readWhole (yearMonthDay ++ .mark mark :: parts) (d.text ++ mark :: s) =
      readEnd parts (.ofDate d) s := by
  rw [readWhole, readFront_dateText, readFront_mark]
  rfl

theorem readWhole_text_otherMark {c mark : Char} (h : c ≠ mark) (parts : List Part)
    (s : List Char) :
    readWhole (yearMonthDay ++ .mark mark :: parts) (d.text ++ c :: s) = none := by
  rw [readWhole, readFront_dateText, Date.readFront_otherMark h, Option.bind_none]

variable {d}

theorem readWhole_dayFirst (hyear : 0 ≤ d.year) (parts : List Part) (s : List Char) :
    readWhole (daySlashMonth ++ .mark ' ' :: parts) (d.dayFirst '/' ++ ' ' :: s) =
      readEnd parts (.ofDate d) s := by
  rw [readWhole, daySlashMonth, Date.dayFirst,
    Date.readFront_dayMonthYear d.day_lt d.month_lt '/' hyear, readFront_mark]
  rfl

theorem readWhole_dayFirst_eq_none (parts : List Part) (s : List Char) :
    readWhole (yearMonthDay ++ parts) (d.dayFirst '/' ++ s) = none := by
  rw [readWhole, Date.dayFirst, Date.readFront_yearMonthDay_eq_none d.day_lt rfl, Option.bind_none]

/-- A date in one of its forms, the mark, and the first of the clocks that reads what is left. -/
def readBehind? (front : List Part) (mark : Char) (clocks : List (List Part)) (s : List Char) :
    Option DateTime :=
  clocks.findSome? fun parts => (readWhole (front ++ .mark mark :: parts) s).bind Reading.dateTime?

theorem readDateTime?_eq (s : List Char) :
    readDateTime? s =
      (((readBehind? yearMonthDay 'T' [hourMinute, hourMinuteSecond, hourToFraction] s).or
        (readBehind? yearMonthDay ' ' [hourMinuteSecond, hourMinute] s)).or
        (readBehind? daySlashMonth ' ' [hourMinuteSecond, hourMinute] s)).or
        ((readDate? s).map .atMidnight) := by
  have hformats : dateTimeFormats =
      ([hourMinute, hourMinuteSecond, hourToFraction].map (yearMonthDay ++ .mark 'T' :: ·) ++
        [hourMinuteSecond, hourMinute].map (yearMonthDay ++ .mark ' ' :: ·)) ++
        [hourMinuteSecond, hourMinute].map (daySlashMonth ++ .mark ' ' :: ·) := rfl
  rw [readDateTime?, hformats, List.findSome?_append, List.findSome?_append, List.findSome?_map,
    List.findSome?_map, List.findSome?_map]
  rfl

theorem readBehind?_eq_readClock? {front : List Part} {mark : Char} {s rest : List Char}
    {r : Reading} (h : ∀ parts, readWhole (front ++ .mark mark :: parts) s = readEnd parts r rest)
    (clocks : List (List Part)) :
    readBehind? front mark clocks s = readClock? clocks r rest := by
  simp only [readBehind?, readClock?, h]

theorem readBehind?_eq_none {front : List Part} {mark : Char} {s : List Char}
    (h : ∀ parts, readWhole (front ++ .mark mark :: parts) s = none)
    (clocks : List (List Part)) : readBehind? front mark clocks s = none := by
  simp only [readBehind?, h, Option.bind_none, List.findSome?_eq_none_iff, implies_true]

/-! ## The readings -/

theorem readDateTime?_text_time (h : t.IsTime s) :
    readDateTime? (d.text ++ 'T' :: s) = some ⟨d, t⟩ := by
  rw [readDateTime?_eq, readBehind?_eq_readClock? fun parts => readWhole_text d 'T' parts s,
    h.readClock? d]
  rfl

theorem readDateTime?_text_clock (h : t.IsClock s) :
    readDateTime? (d.text ++ ' ' :: s) = some ⟨d, t⟩ := by
  have hother : (' ' : Char) ≠ 'T' := by decide
  rw [readDateTime?_eq,
    readBehind?_eq_none fun parts => readWhole_text_otherMark d hother parts s,
    readBehind?_eq_readClock? fun parts => readWhole_text d ' ' parts s, (h.readClock? d).1]
  rfl

theorem readDateTime?_dayFirst_clock (hyear : 0 ≤ d.year) (h : t.IsClock s) :
    readDateTime? (d.dayFirst '/' ++ ' ' :: s) = some ⟨d, t⟩ := by
  rw [readDateTime?_eq, readBehind?_eq_none fun parts => readWhole_dayFirst_eq_none _ _,
    readBehind?_eq_none fun parts => readWhole_dayFirst_eq_none _ _,
    readBehind?_eq_readClock? fun parts => readWhole_dayFirst hyear parts s, (h.readClock? d).1]
  rfl

end RecordFilter.Calendar
