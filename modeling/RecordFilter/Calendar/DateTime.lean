import RecordFilter.Calendar.Date
import RecordFilter.Calendar.TimeOfDay

/-!
# Date-times and instants

A date-time is a date with a time of day and belongs to no place. An instant is a date-time as it
is read at some offset from UTC. Instants compare as moments, so two of them can be equal and look
different.
-/

namespace RecordFilter.Calendar

structure DateTime where
  date : Date
  time : TimeOfDay
  deriving DecidableEq, Repr

namespace DateTime

/-- A number that grows with the date-time. Days are as far apart as the ranks of their dates. -/
def rank (t : DateTime) : Int := t.date.rank * nanosPerDay + t.time.nanos

def compare (a b : DateTime) : Ordering := Ord.compare a.rank b.rank

def le (a b : DateTime) : Bool := a.rank ≤ b.rank

/-- The start of the date. -/
def atMidnight (d : Date) : DateTime := ⟨d, .midnight⟩

/-- The last moment of the date. -/
def atLastMoment (d : Date) : DateTime := ⟨d, .lastMoment⟩

/-- The same time on the day after. -/
def nextDay? (t : DateTime) : Option DateTime := t.date.next?.map fun d => ⟨d, t.time⟩

/-- The same time on the day before. -/
def previousDay? (t : DateTime) : Option DateTime := t.date.previous?.map fun d => ⟨d, t.time⟩

/-- The time from the start of 1 January 1970, in nanoseconds. -/
def moment (t : DateTime) : Int := t.date.dayNumber * nanosPerDay + t.time.nanos

/-- The date-time at the given distance from the start of 1 January 1970. -/
def ofMoment? (n : Int) : Option DateTime :=
  (Date.ofDayNumber? (n.fdiv nanosPerDay)).map fun d => ⟨d, .ofNanos (n.fmod nanosPerDay).toNat⟩

def text (t : DateTime) : List Char := t.date.text ++ 'T' :: t.time.text

end DateTime

structure Instant where
  /-- The date-time at the offset. -/
  reading : DateTime
  /-- The offset from UTC in seconds, less than a day. -/
  offset : Int
  deriving DecidableEq, Repr

namespace Instant

def ofUtc (t : DateTime) : Instant := ⟨t, 0⟩

def moment (t : Instant) : Int := t.reading.moment - t.offset * nanosPerSecond

def compare (a b : Instant) : Ordering := Ord.compare a.moment b.moment

def le (a b : Instant) : Bool := a.moment ≤ b.moment

/-- The instant that reads the same on the day after. -/
def nextDay? (t : Instant) : Option Instant := t.reading.nextDay?.map fun r => ⟨r, t.offset⟩

/-- The instant that reads the same on the day before. -/
def previousDay? (t : Instant) : Option Instant := t.reading.previousDay?.map fun r => ⟨r, t.offset⟩

/-- The reading at offset zero. It is on the same day, the day before or the day after, and there is
none when that day is outside the calendar. -/
def utc? (t : Instant) : Option DateTime :=
  let nanos := (t.reading.time.nanos : Int) - t.offset * nanosPerSecond
  let date := if nanos < 0 then t.reading.date.previous?
    else if nanosPerDay ≤ nanos then t.reading.date.next?
    else some t.reading.date
  date.map fun d => ⟨d, .ofNanos (nanos.emod nanosPerDay).toNat⟩

/-- The UTC reading followed by `Z`. An instant whose UTC reading is outside the calendar has no
text. -/
def text? (t : Instant) : Option (List Char) := t.utc?.map fun r => r.text ++ ['Z']

end Instant

end RecordFilter.Calendar
