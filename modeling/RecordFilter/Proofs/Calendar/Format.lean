import Mathlib.Algebra.GroupWithZero.Nat
import RecordFilter.Calendar.Format
import RecordFilter.Proofs.Calendar.Date
import RecordFilter.Proofs.Text.Digits

/-!
# Dates and times that are read back

The text of a date, a time of day or a date-time is read again as itself, though several formats
are tried on it: those that come before the right one do not read the whole text.
-/

namespace RecordFilter.Calendar

open RecordFilter.Text

/-! ## Parts -/

theorem takeDigits_padded {count n : Nat} (hcount : 0 < count) (hn : n < Nat.pow 10 count)
    (s : List Char) : takeDigits count (padded count n ++ s) = some (n, s) := by
  have hlength := length_padded hcount hn
  have htake : (padded count n ++ s).take count = padded count n := List.take_left' hlength
  have hdrop : (padded count n ++ s).drop count = s := List.drop_left' hlength
  rw [takeDigits, htake, hdrop, if_pos hlength, digitsFrom_padded]
  rfl

theorem takeDigits_two {n : Nat} (hn : n < 100) (s : List Char) :
    takeDigits 2 (padded 2 n ++ s) = some (n, s) := takeDigits_padded (by decide) hn s

theorem exists_padded_eq_cons (count n : Nat) :
    ∃ c rest, padded count n = c :: rest ∧ isDigit c = true := by
  obtain ⟨c, rest, h⟩ := List.exists_cons_of_ne_nil (padded_ne_nil count n)
  have hc : c ∈ padded count n := by
    rw [h]
    exact List.mem_cons_self
  exact ⟨c, rest, h, isDigit_of_mem_padded hc⟩

theorem readFront_of_read {p : Part} {r r' : Reading} {s s' : List Char}
    (h : p.read r s = some (r', s')) (ps : List Part) :
    readFront (p :: ps) r s = readFront ps r' s' := by
  rw [readFront, h]
  rfl

theorem readFront_mark (c : Char) (ps : List Part) (r : Reading) (s : List Char) :
    readFront (.mark c :: ps) r (c :: s) = readFront ps r s := by
  simp [readFront, Part.read]

theorem read_yearText {year : Int} (hyear : -9999 ≤ year ∧ year ≤ 9999) (r : Reading)
    (s : List Char) :
    Part.year.read r (Date.yearText year ++ s) = some ({ r with year := year }, s) := by
  have hdigits : takeDigits 4 (padded 4 year.natAbs ++ s) = some (year.natAbs, s) :=
    takeDigits_padded (by decide) (show year.natAbs < 10000 by omega) s
  unfold Date.yearText
  split
  · have habs : -(year.natAbs : Int) = year := by omega
    simp only [List.cons_append, List.nil_append, Part.read, hdigits, Option.map_some, habs]
  · have habs : (year.natAbs : Int) = year := by omega
    obtain ⟨c, rest, hcons, hc⟩ := exists_padded_eq_cons 4 year.natAbs
    rw [hcons] at hdigits ⊢
    simp only [List.cons_append, List.nil_append] at hdigits ⊢
    rw [Part.read]
    · simp only [hdigits, Option.map_some, habs]
    · rintro t heq
      cases heq
      cases hc
    · rintro t heq
      cases heq
      cases hc

/-! ## Dates -/

/-- The text of a date behind its year, and what follows. -/
def Date.monthDayText (d : Date) (s : List Char) : List Char :=
  '-' :: (padded 2 d.month ++ '-' :: (padded 2 d.day ++ s))

theorem Date.text_append (d : Date) (s : List Char) :
    d.text ++ s = Date.yearText d.year ++ d.monthDayText s := by
  simp [text, monthDayText]

theorem readFront_monthDay (d : Date) (ps : List Part) (r : Reading) (s : List Char) :
    readFront ([.mark '-', .month, .mark '-', .day] ++ ps) r (d.monthDayText s) =
      readFront ps { r with month := d.month, day := d.day } s := by
  have hmonth : d.month < 100 := by
    have := d.month_bounds
    omega
  have hday : d.day < 100 := by
    have := d.day_bounds
    omega
  simp only [Date.monthDayText, List.cons_append, List.nil_append, readFront, Part.read,
    takeDigits_two hmonth, takeDigits_two hday, Option.map_some, Option.bind_some, if_true]

theorem readFront_dateText (d : Date) (ps : List Part) (r : Reading) (s : List Char) :
    readFront (yearMonthDay ++ ps) r (d.text ++ s) =
      readFront ps { r with year := d.year, month := d.month, day := d.day } s := by
  rw [d.text_append, yearMonthDay, List.cons_append,
    readFront_of_read (read_yearText d.year_bounds r _)]
  exact readFront_monthDay d ps { r with year := d.year } s

theorem readDate?_text (d : Date) : readDate? d.text = some d := by
  have hfront := readFront_dateText d [] {} []
  rw [List.append_nil, List.append_nil] at hfront
  have hread : (readWhole yearMonthDay d.text).bind Reading.date? = some d := by
    rw [readWhole, hfront]
    exact Date.of?_eq_some_iff.mpr ⟨rfl, rfl, rfl⟩
  rw [readDate?, dateFormats, List.findSome?_cons, hread]

/-! ## Times of day -/

namespace TimeOfDay

/-- The places of the second, which are left out where they are all zero. -/
def placesText (t : TimeOfDay) : List Char :=
  if t.nanosecond = 0 then [] else '.' :: padded 9 t.nanosecond

theorem text_append (t : TimeOfDay) (s : List Char) :
    t.text ++ s = padded 2 t.hour ++ ':' :: (padded 2 t.minute ++ ':' ::
      (padded 2 t.second ++ (t.placesText ++ s))) := by
  simp [text, placesText]

end TimeOfDay

theorem readFront_hourMinute (t : TimeOfDay) (ps : List Part) (r : Reading) (s : List Char) :
    readFront (hourMinute ++ ps) r (t.text ++ s) =
      readFront ps { r with hour := t.hour, minute := t.minute }
        (':' :: (padded 2 t.second ++ (t.placesText ++ s))) := by
  obtain ⟨hhour, hminute, -, -⟩ := t.valid
  rw [t.text_append]
  simp only [hourMinute, List.cons_append, List.nil_append, readFront, Part.read,
    takeDigits_two (show t.hour < 100 by omega), takeDigits_two (show t.minute < 100 by omega),
    Option.map_some, Option.bind_some, if_true]

theorem readFront_hourMinuteSecond (t : TimeOfDay) (ps : List Part) (r : Reading)
    (s : List Char) :
    readFront (hourMinuteSecond ++ ps) r (t.text ++ s) =
      readFront ps { r with hour := t.hour, minute := t.minute, second := t.second }
        (t.placesText ++ s) := by
  obtain ⟨-, -, hsecond, -⟩ := t.valid
  rw [hourMinuteSecond, List.append_assoc, readFront_hourMinute]
  simp only [List.cons_append, List.nil_append, readFront, Part.read,
    takeDigits_two (show t.second < 100 by omega), Option.map_some, Option.bind_some, if_true]

theorem fractionNanos_padded {n : Nat} (hn : n < nanosPerSecond) :
    fractionNanos (padded 9 n) = n := by
  have hlength : (padded 9 n).length = 9 := length_padded (by decide) hn
  rw [fractionNanos, List.take_left' hlength, digitsFrom_padded]
  rfl

theorem read_places {places : List Char} (hsome : places ≠ [])
    (hdigits : ∀ c ∈ places, isDigit c = true) (r : Reading) {s : List Char}
    (hs : ∀ c ∈ s.head?, isDigit c = false) :
    Part.fraction.read r (places ++ s) =
      some ({ r with nanosecond := fractionNanos places }, s) := by
  have htake : (places ++ s).takeWhile isDigit = places := by
    rw [List.takeWhile_append_of_pos hdigits]
    cases s with
    | nil => simp
    | cons c s => simp [hs c rfl]
  have hdrop : (places ++ s).dropWhile isDigit = s := by
    rw [List.dropWhile_append_of_pos hdigits]
    cases s with
    | nil => rfl
    | cons c s => simp [hs c rfl]
  have hnil : places.isEmpty = false := List.isEmpty_eq_false_iff.mpr hsome
  simp only [Part.read, htake, hdrop, hnil, Bool.false_eq_true, if_false]

theorem read_fraction {n : Nat} (hn : n < nanosPerSecond) (r : Reading) {s : List Char}
    (hs : ∀ c ∈ s.head?, isDigit c = false) :
    Part.fraction.read r (padded 9 n ++ s) = some ({ r with nanosecond := n }, s) := by
  rw [read_places (padded_ne_nil 9 n) (fun c => isDigit_of_mem_padded) r hs,
    fractionNanos_padded hn]

/-- Reads all that is left of the text as the parts. -/
def readEnd (parts : List Part) (r : Reading) (s : List Char) : Option Reading :=
  (readFront parts r s).bind fun (r, rest) => if rest.isEmpty then some r else none

theorem readEnd_hourMinute (t : TimeOfDay) (r : Reading) : readEnd hourMinute r t.text = none := by
  have hfront := readFront_hourMinute t [] r []
  rw [List.append_nil, List.append_nil] at hfront
  rw [readEnd, hfront]
  rfl

theorem readEnd_hourMinuteSecond (t : TimeOfDay) (r : Reading) :
    readEnd hourMinuteSecond r t.text =
      if t.nanosecond = 0 then
        some { r with hour := t.hour, minute := t.minute, second := t.second }
      else none := by
  have hfront := readFront_hourMinuteSecond t [] r []
  rw [List.append_nil, List.append_nil, List.append_nil] at hfront
  rw [readEnd, hfront, TimeOfDay.placesText]
  split <;> rfl

theorem readEnd_hourToFraction (t : TimeOfDay) (r : Reading) (h : t.nanosecond ≠ 0) :
    readEnd hourToFraction r t.text =
      some { r with
        hour := t.hour, minute := t.minute, second := t.second, nanosecond := t.nanosecond } := by
  have hfront := readFront_hourMinuteSecond t [.mark '.', .fraction] r []
  have hfraction := fun r => read_fraction t.valid.2.2.2 r (s := []) nofun
  rw [List.append_nil, List.append_nil, TimeOfDay.placesText, if_neg h, readFront_mark,
    readFront] at hfront
  rw [List.append_nil] at hfraction
  rw [readEnd, hourToFraction, hfront, hfraction]
  rfl

theorem TimeOfDay.of?_eq_some (t : TimeOfDay) :
    TimeOfDay.of? t.hour t.minute t.second t.nanosecond = some t := dif_pos t.valid

theorem readTime?_text (t : TimeOfDay) : readTime? t.text = some t := by
  have hwhole : ∀ parts, readWhole parts t.text = readEnd parts {} t.text := fun _ => rfl
  have htime := t.of?_eq_some
  simp only [readTime?, timeFormats, List.findSome?_cons, hwhole, readEnd_hourMinuteSecond]
  -- The format without places is tried first, and leaves the places over where there are any.
  by_cases h : t.nanosecond = 0
  · rw [h] at htime
    rw [if_pos h, Option.bind_some, Reading.time?, htime]
  · rw [if_neg h, Option.bind_none, readEnd_hourToFraction t _ h, Option.bind_some, Reading.time?,
      htime]

/-! ## Date-times -/

theorem readEnd_dateText (d : Date) (parts : List Part) (s : List Char) :
    readEnd (yearMonthDay ++ .mark 'T' :: parts) {} (d.text ++ 'T' :: s) =
      readEnd parts { year := d.year, month := d.month, day := d.day } s := by
  rw [readEnd, readFront_dateText]
  rfl

theorem readDateTime?_text (t : DateTime) : readDateTime? t.text = some t := by
  have hwhole : ∀ parts, readWhole (yearMonthDay ++ .mark 'T' :: parts) t.text =
      readEnd parts { year := t.date.year, month := t.date.month, day := t.date.day }
        t.time.text :=
    fun parts => readEnd_dateText t.date parts t.time.text
  have hdate : Date.of? t.date.year t.date.month t.date.day = some t.date :=
    Date.of?_eq_some_iff.mpr ⟨rfl, rfl, rfl⟩
  have htime := t.time.of?_eq_some
  simp only [readDateTime?, dateTimeFormats, List.findSome?_cons, hwhole, readEnd_hourMinute,
    readEnd_hourMinuteSecond, Option.bind_none]
  -- The format up to the minute leaves the seconds over; then it is as for a time of day.
  by_cases h : t.time.nanosecond = 0
  · rw [h] at htime
    simp only [if_pos h, Option.bind_some, Reading.dateTime?, Reading.date?, Reading.time?, hdate,
      htime, Option.map_some, Option.some_or]
  · simp only [if_neg h, Option.bind_none, readEnd_hourToFraction t.time _ h, Option.bind_some,
      Reading.dateTime?, Reading.date?, Reading.time?, hdate, htime, Option.map_some,
      Option.some_or]

/-! ## Bare dates -/

namespace Part

/-- The fewest characters that the part takes. -/
def least : Part → Nat
  | .year | .plainYear => 4
  | .month | .day | .hour | .minute | .second => 2
  | .fraction | .mark _ | .anyMark => 1

/-- The most characters that the part takes, a fraction apart. -/
def most (p : Part) : Nat := if p = .year then 5 else p.least

end Part

theorem length_of_takeDigits {count n : Nat} {s s' : List Char}
    (h : takeDigits count s = some (n, s')) : s.length = count + s'.length := by
  unfold takeDigits at h
  split at h
  · rename_i hcount
    obtain ⟨m, -, heq⟩ := Option.map_eq_some_iff.mp h
    cases heq
    rw [List.length_take] at hcount
    rw [List.length_drop]
    omega
  · cases h

theorem Part.length_read {p : Part} {r r' : Reading} {s s' : List Char}
    (h : p.read r s = some (r', s')) :
    p.least + s'.length ≤ s.length ∧ (p ≠ .fraction → s.length ≤ p.most + s'.length) := by
  cases p with
  | year =>
    have hsigned : ∃ n t, takeDigits 4 t = some (n, s') ∧
        t.length ≤ s.length ∧ s.length ≤ t.length + 1 := by
      simp only [Part.read] at h
      split at h
      all_goals
        obtain ⟨⟨n, t⟩, hdigits, heq⟩ := Option.map_eq_some_iff.mp h
        cases heq
        exact ⟨n, _, hdigits, by simp, by simp⟩
    obtain ⟨n, t, hdigits, hlow, hhigh⟩ := hsigned
    have hlength := length_of_takeDigits hdigits
    simp only [least, most, if_true]
    omega
  | plainYear | month | day | hour | minute | second =>
    obtain ⟨⟨n, t⟩, hdigits, heq⟩ := Option.map_eq_some_iff.mp h
    cases heq
    have hlength := length_of_takeDigits hdigits
    simp only [least, most, reduceCtorEq, if_false]
    omega
  | fraction =>
    simp only [Part.read] at h
    split at h
    · cases h
    · rename_i hdigits
      cases h
      have hsplit := congrArg List.length (List.takeWhile_append_dropWhile (p := isDigit) (l := s))
      have hpos := List.length_pos_iff.mpr (mt List.isEmpty_iff.mpr hdigits)
      rw [List.length_append] at hsplit
      simp only [least]
      exact ⟨by omega, fun hne => absurd rfl hne⟩
  | mark c | anyMark =>
    simp only [Part.read] at h
    split at h
    · split at h
      · cases h
        simp only [least, most, reduceCtorEq, if_false, List.length_cons]
        omega
      · cases h
    · cases h

theorem length_readFront {parts : List Part} {r r' : Reading} {s s' : List Char}
    (h : readFront parts r s = some (r', s')) :
    (parts.map Part.least).sum + s'.length ≤ s.length ∧
      (.fraction ∉ parts → s.length ≤ (parts.map Part.most).sum + s'.length) := by
  induction parts generalizing r s with
  | nil =>
    cases h
    simp
  | cons p ps ih =>
    obtain ⟨⟨r1, s1⟩, hread, hrest⟩ := Option.bind_eq_some_iff.mp h
    obtain ⟨hleast, hmost⟩ := Part.length_read hread
    obtain ⟨hleasts, hmosts⟩ := ih hrest
    simp only [List.map_cons, List.sum_cons, List.mem_cons, not_or]
    refine ⟨by omega, fun ⟨hp, hps⟩ => ?_⟩
    have hfront := hmost (Ne.symm hp)
    have hback := hmosts hps
    omega

theorem length_readWhole {parts : List Part} {r : Reading} {s : List Char}
    (h : readWhole parts s = some r) :
    (parts.map Part.least).sum ≤ s.length ∧
      (.fraction ∉ parts → s.length ≤ (parts.map Part.most).sum) := by
  obtain ⟨⟨r', rest⟩, hfront, h⟩ := Option.bind_eq_some_iff.mp h
  dsimp only at h
  split at h
  · rename_i hrest
    have hlength := length_readFront hfront
    rw [List.isEmpty_iff.mp hrest] at hlength
    exact hlength
  · cases h

theorem readDateTime?_of_readDate? {s : List Char} {d : Date} (h : readDate? s = some d) :
    readDateTime? s = some (.atMidnight d) := by
  have hshort : s.length ≤ 11 := by
    obtain ⟨f, hf, hread⟩ := List.exists_of_findSome?_eq_some h
    obtain ⟨r, hwhole, -⟩ := Option.bind_eq_some_iff.mp hread
    have hformat : ∀ f ∈ dateFormats, .fraction ∉ f ∧ (f.map Part.most).sum ≤ 11 := by decide
    exact Nat.le_trans ((length_readWhole hwhole).2 (hformat f hf).1) (hformat f hf).2
  have hnone : (dateTimeFormats.findSome? fun f => (readWhole f s).bind Reading.dateTime?) =
      none := by
    rw [List.findSome?_eq_none_iff]
    intro f hf
    cases hwhole : readWhole f s with
    | none => rfl
    | some r =>
      have hformat : ∀ f ∈ dateTimeFormats, 16 ≤ (f.map Part.least).sum := by decide
      have hlong := Nat.le_trans (hformat f hf) (length_readWhole hwhole).1
      omega
  rw [readDateTime?, hnone, h]
  rfl

end RecordFilter.Calendar
