import RecordFilter.Proofs.Calendar.Format
import RecordFilter.Proofs.Yields

/-!
# Instants and their texts

The text of an instant is its reading at offset zero. That reading may lie outside the calendar,
where there is no text, or in a year before 0, which the form of timestamps has no room for.
-/

namespace RecordFilter.Calendar

open RecordFilter.Text

theorem nanosPerDay_eq : (nanosPerDay : Int) = 86400000000000 := rfl

theorem nanosPerSecond_eq : (nanosPerSecond : Int) = 1000000000 := rfl

theorem TimeOfDay.nanos_ofNanos {n : Nat} (hn : n < nanosPerDay) : (ofNanos n).nanos = n := by
  have hsecond : nanosPerSecond = 1000000000 := rfl
  simp only [nanosPerDay, hsecond] at hn
  simp only [nanos, ofNanos, hsecond]
  omega

theorem TimeOfDay.nanos_bounds (t : TimeOfDay) :
    0 ≤ (t.nanos : Int) ∧ (t.nanos : Int) < 86400000000000 := by
  have hnanos : (t.nanos : Int) < nanosPerDay := Int.ofNat_lt.mpr t.nanos_lt
  rw [nanosPerDay_eq] at hnanos
  omega

/-! ## Moments -/

namespace DateTime

/-- The last moment of the calendar. -/
def lastMoment : Int := (atLastMoment Date.latest).moment

/-- The first moment of the year 0. -/
def yearZero : Int := (atMidnight Date.startOfYearZero).moment

theorem moment_eq (t : DateTime) :
    t.moment = t.date.dayNumber * 86400000000000 + t.time.nanos := by
  rw [moment, nanosPerDay_eq]

theorem lastMoment_eq : lastMoment = Date.latest.dayNumber * 86400000000000 + 86399999999999 := by
  rw [lastMoment, moment_eq]
  rfl

theorem yearZero_eq : yearZero = Date.startOfYearZero.dayNumber * 86400000000000 := by
  rw [yearZero, moment_eq, show (atMidnight Date.startOfYearZero).time.nanos = 0 from rfl]
  exact Int.add_zero _

theorem moment_le_lastMoment (t : DateTime) : t.moment ≤ lastMoment := by
  have hday := t.date.dayNumber_le_latest
  have hnanos := t.time.nanos_bounds
  rw [lastMoment_eq, moment_eq]
  omega

theorem year_nonneg_iff {t : DateTime} : 0 ≤ t.date.year ↔ yearZero ≤ t.moment := by
  have hnanos := t.time.nanos_bounds
  rw [Date.year_nonneg_iff, yearZero_eq, moment_eq]
  omega

end DateTime

/-! ## The reading at offset zero -/

namespace Instant

/-- The nanoseconds of the UTC reading, counted from the start of the day of the instant's own
reading. -/
def utcNanos (t : Instant) : Int := t.reading.time.nanos - t.offset * nanosPerSecond

theorem moment_eq (t : Instant) :
    t.moment = t.reading.date.dayNumber * 86400000000000 + t.utcNanos := by
  rw [moment, utcNanos, DateTime.moment_eq]
  omega

/-- An offset that is less than a day. -/
def IsNear (t : Instant) : Prop := -86400 < t.offset ∧ t.offset < 86400

theorem utcNanos_bounds {t : Instant} (h : t.IsNear) :
    -86400000000000 ≤ t.utcNanos ∧ t.utcNanos < 2 * 86400000000000 := by
  have hnanos := t.reading.time.nanos_bounds
  obtain ⟨hlow, hhigh⟩ := h
  rw [utcNanos, nanosPerSecond_eq]
  omega

theorem utc?_eq (t : Instant) : t.utc? =
    (if t.utcNanos < 0 then t.reading.date.previous?
      else if 86400000000000 ≤ t.utcNanos then t.reading.date.next?
      else some t.reading.date).map fun d =>
        ⟨d, .ofNanos (t.utcNanos % 86400000000000).toNat⟩ := rfl

theorem moment_of_utc? {t : Instant} {u : DateTime} (h : t.IsNear) (hu : t.utc? = some u) :
    u.moment = t.moment := by
  have hbounds := utcNanos_bounds h
  rw [utc?_eq] at hu
  obtain ⟨d, hd, rfl⟩ := Option.map_eq_some_iff.mp hu
  have hnanos : (TimeOfDay.ofNanos (t.utcNanos % 86400000000000).toNat).nanos =
      (t.utcNanos % 86400000000000).toNat := by
    refine TimeOfDay.nanos_ofNanos ?_
    rw [show nanosPerDay = 86400000000000 from rfl]
    omega
  rw [DateTime.moment_eq, moment_eq, hnanos]
  dsimp only
  -- Where the nanoseconds are not those of the day, the day before or behind makes up for it.
  split at hd
  · rw [Date.dayNumber_previous hd]
    omega
  · split at hd
    · rw [Date.dayNumber_next hd]
      omega
    · cases hd
      omega

theorem utc?_eq_none_iff {t : Instant} : t.utc? = none ↔
    t.utcNanos < 0 ∧ t.reading.date = Date.earliest ∨
      86400000000000 ≤ t.utcNanos ∧ t.reading.date = Date.latest := by
  rw [utc?_eq, Option.map_eq_none_iff]
  split
  · rename_i hearly
    have hlate : ¬ 86400000000000 ≤ t.utcNanos := by omega
    simp [Date.previous?_eq_none_iff, hearly, hlate]
  · rename_i hearly
    split
    · rename_i hlate
      simp [Date.next?_eq_none_iff, hearly, hlate]
    · rename_i hlate
      simp [hearly, hlate]

/-- An instant whose reading at offset zero is not before the calendar: it was read in UTC, or in a
year that a timestamp can have. -/
structure Timestamped (t : Instant) : Prop where
  near : t.IsNear
  origin : t.offset = 0 ∨ 0 ≤ t.reading.date.year

theorem isSome_utc?_iff {t : Instant} (h : t.Timestamped) :
    (∃ u, t.utc? = some u) ↔ t.moment ≤ DateTime.lastMoment := by
  constructor
  · rintro ⟨u, hu⟩
    rw [← moment_of_utc? h.near hu]
    exact u.moment_le_lastMoment
  · intro hle
    refine Option.ne_none_iff_exists'.mp fun hnone => ?_
    -- Before the calendar no such instant is, and behind it none that is not too late.
    rcases utc?_eq_none_iff.mp hnone with ⟨hearly, hdate⟩ | ⟨hlate, hdate⟩
    · have hnanos := t.reading.time.nanos_bounds
      rcases h.origin with hzero | hyear
      · rw [utcNanos, hzero] at hearly
        omega
      · rw [hdate] at hyear
        exact absurd hyear (by decide)
    · rw [moment_eq, hdate, DateTime.lastMoment_eq] at hle
      omega

end Instant

/-! ## What is read -/

theorem near_of_readOffset? {s : List Char} {offset : Int} (h : readOffset? s = some offset) :
    -86400 < offset ∧ offset < 86400 := by
  unfold readOffset? at h
  split at h
  · split at h
    · cases h
      omega
    · cases h
  · obtain ⟨r, -, h⟩ := Option.bind_eq_some_iff.mp h
    split at h
    · dsimp only at h
      split at h
      · cases h
        omega
      · split at h
        · cases h
          omega
        · cases h
    · cases h
  · cases h

theorem Part.year_nonneg_of_read {p : Part} (hp : p ≠ .year) {r r' : Reading} {s s' : List Char}
    (hr : 0 ≤ r.year) (h : p.read r s = some (r', s')) : 0 ≤ r'.year := by
  cases p with
  | year => exact absurd rfl hp
  | plainYear =>
    obtain ⟨n, -, heq⟩ := Option.map_eq_some_iff.mp h
    cases heq
    exact Int.natCast_nonneg _
  | month | day | hour | minute | second =>
    obtain ⟨n, -, heq⟩ := Option.map_eq_some_iff.mp h
    cases heq
    exact hr
  | fraction =>
    simp only [Part.read] at h
    split at h
    · cases h
    · cases h
      exact hr
  | mark c | anyMark =>
    simp only [Part.read] at h
    split at h
    · split at h
      · cases h
        exact hr
      · cases h
    · cases h

theorem year_nonneg_of_readFront {parts : List Part} (hparts : .year ∉ parts) {r r' : Reading}
    {s s' : List Char} (hr : 0 ≤ r.year) (h : readFront parts r s = some (r', s')) :
    0 ≤ r'.year := by
  induction parts generalizing r s with
  | nil =>
    cases h
    exact hr
  | cons p ps ih =>
    obtain ⟨hp, hps⟩ := not_or.mp (mt List.mem_cons.mpr hparts)
    obtain ⟨⟨r1, s1⟩, hread, hrest⟩ := Option.bind_eq_some_iff.mp h
    exact ih hps (Part.year_nonneg_of_read (Ne.symm hp) hr hread) hrest

theorem year_nonneg_of_readFraction? {r r' : Reading} {s s' : List Char} (hr : 0 ≤ r.year)
    (h : readFraction? r s = some (r', s')) : 0 ≤ r'.year := by
  unfold readFraction? at h
  split at h
  · exact Part.year_nonneg_of_read (by decide) hr h
  · cases h
    exact hr

theorem Reading.year_of_dateTime? {r : Reading} {t : DateTime} (h : r.dateTime? = some t) :
    t.date.year = r.year := by
  obtain ⟨d, hd, h⟩ := Option.bind_eq_some_iff.mp h
  obtain ⟨time, -, rfl⟩ := Option.map_eq_some_iff.mp h
  exact (Date.of?_eq_some_iff.mp hd).1

theorem timestamped_of_readTimestamp? {s : List Char} {t : Instant}
    (h : readTimestamp? s = some t) : t.Timestamped := by
  unfold readTimestamp? at h
  obtain ⟨⟨r, s⟩, hfront, h⟩ := Option.bind_eq_some_iff.mp h
  obtain ⟨⟨r', s'⟩, hfraction, h⟩ := Option.bind_eq_some_iff.mp h
  obtain ⟨offset, hoffset, h⟩ := Option.bind_eq_some_iff.mp h
  have hyear : 0 ≤ r'.year := year_nonneg_of_readFraction?
    (year_nonneg_of_readFront (by decide) (Int.le_refl 0) hfront) hfraction
  have hnear := near_of_readOffset? hoffset
  split at h
  · obtain ⟨reading, hreading, h⟩ := Option.bind_eq_some_iff.mp h
    obtain ⟨u, -, h⟩ := Option.bind_eq_some_iff.mp h
    split at h
    · cases h
      have hsame := Reading.year_of_dateTime? hreading
      exact ⟨hnear, .inr (Int.le_trans hyear (Int.le_of_eq hsame.symm))⟩
    · cases h
  · obtain ⟨reading, hreading, rfl⟩ := Option.map_eq_some_iff.mp h
    have hsame := Reading.year_of_dateTime? hreading
    exact ⟨hnear, .inr (Int.le_trans hyear (Int.le_of_eq hsame.symm))⟩

theorem timestamped_of_ofMillis? {millis : Int} {t : Instant} (h : ofMillis? millis = some t) :
    t.Timestamped := by
  obtain ⟨r, -, rfl⟩ := Option.map_eq_some_iff.mp h
  have hzero : (Instant.ofUtc r).offset = 0 := rfl
  exact ⟨⟨by omega, by omega⟩, .inl hzero⟩

/-! ## What is written -/

theorem read_plainYear {year : Int} (hyear : 0 ≤ year ∧ year ≤ 9999) (r : Reading)
    (s : List Char) :
    Part.plainYear.read r (Date.yearText year ++ s) = some ({ r with year := year }, s) := by
  have hdigits : takeDigits 4 (padded 4 year.natAbs ++ s) = some (year.natAbs, s) :=
    takeDigits_padded (by decide) (show year.natAbs < 10000 by omega) s
  have habs : (year.natAbs : Int) = year := by omega
  rw [Date.yearText, if_neg (by omega), List.nil_append, Part.read, hdigits]
  simp only [Option.map_some, habs]

theorem readFront_anyMark {c : Char} (hc : c.toNat < 0x80) (ps : List Part) (r : Reading)
    (s : List Char) : readFront (.anyMark :: ps) r (c :: s) = readFront ps r s := by
  simp [readFront, Part.read, hc]

/-- What is read of a date-time up to its seconds. -/
def Reading.upToSecond (u : DateTime) : Reading where
  year := u.date.year
  month := u.date.month
  day := u.date.day
  hour := u.time.hour
  minute := u.time.minute
  second := u.time.second

theorem readFront_timestamp {u : DateTime} (h : 0 ≤ u.date.year) (s : List Char) :
    readFront ([.plainYear, .mark '-', .month, .mark '-', .day, .anyMark] ++ hourMinuteSecond) {}
      (u.text ++ s) = some (.upToSecond u, u.time.placesText ++ s) := by
  have htext : u.text ++ s = Date.yearText u.date.year ++
      u.date.monthDayText ('T' :: (u.time.text ++ s)) := by
    rw [DateTime.text, List.append_assoc, List.cons_append, Date.text_append]
  have htime := readFront_hourMinuteSecond u.time []
    { year := u.date.year, month := u.date.month, day := u.date.day } s
  rw [List.append_nil] at htime
  rw [htext, List.cons_append,
    readFront_of_read (read_plainYear ⟨h, u.date.year_bounds.2⟩ {} _)]
  change readFront ([.mark '-', .month, .mark '-', .day] ++ (.anyMark :: hourMinuteSecond)) _ _ = _
  rw [readFront_monthDay, readFront_anyMark (by decide), htime]
  rfl

theorem readFraction?_places (t : TimeOfDay) (r : Reading) (hr : r.nanosecond = 0) :
    readFraction? r (t.placesText ++ ['Z']) =
      some ({ r with nanosecond := t.nanosecond }, ['Z']) := by
  unfold TimeOfDay.placesText
  split
  · rename_i hzero
    rw [hzero, ← hr]
    rfl
  · exact read_fraction t.valid.2.2.2 r (by simp [isDigit, digit?])

theorem readTimestamp?_text {u : DateTime} (h : 0 ≤ u.date.year) :
    readTimestamp? (u.text ++ ['Z']) = some ⟨u, 0⟩ := by
  have hdate : Date.of? u.date.year u.date.month u.date.day = some u.date :=
    Date.of?_eq_some_iff.mpr ⟨rfl, rfl, rfl⟩
  have htime := u.time.of?_eq_some
  have hsecond : ¬ (Reading.upToSecond u).second = 60 := by
    have : u.time.second < 60 := u.time.valid.2.2.1
    exact Nat.ne_of_lt this
  have hfraction := readFraction?_places u.time (.upToSecond u) rfl
  have hoffset : readOffset? ['Z'] = some 0 := rfl
  rw [readTimestamp?]
  simp only [readFront_timestamp h, bind, Option.bind_some, hfraction, hoffset]
  rw [if_neg hsecond]
  simp only [Reading.dateTime?, Reading.date?, Reading.time?, Reading.upToSecond, hdate, htime,
    Option.bind_some, Option.map_some]

theorem readTimestamp?_text_of_neg {u : DateTime} (h : u.date.year < 0) :
    readTimestamp? (u.text ++ ['Z']) = none := by
  have htake : ∀ s, takeDigits 4 ('-' :: s) = none := by
    intro s
    unfold takeDigits
    split <;> rfl
  have htext : ∃ s, u.text ++ ['Z'] = '-' :: s := by
    rw [DateTime.text, Date.text, Date.yearText, if_pos h]
    exact ⟨_, rfl⟩
  obtain ⟨s, hs⟩ := htext
  rw [hs]
  change ((Part.plainYear.read {} _).bind _ >>= _) = _
  rw [Part.read, htake]
  rfl

end RecordFilter.Calendar
