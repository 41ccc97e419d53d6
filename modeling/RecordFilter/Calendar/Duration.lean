import RecordFilter.Calendar.Amount
import RecordFilter.Calendar.TimeOfDay

/-!
# Durations

A duration is a number of nanoseconds, such that its whole seconds are an integer of 64 bits. It is
read from days, hours, minutes and seconds, and always written in seconds.
-/

namespace RecordFilter.Calendar

open RecordFilter.Text RecordFilter.Number

structure Duration where
  nanos : Int
  seconds_holds : (IntegerRange.signed 64).Holds (nanos.tdiv nanosPerSecond)
  deriving DecidableEq, Repr

namespace Duration

def of? (nanos : Int) : Option Duration :=
  if h : (IntegerRange.signed 64).Holds (nanos.tdiv nanosPerSecond) then some ⟨nanos, h⟩ else none

/-- The whole seconds, toward zero. -/
def seconds (d : Duration) : Int := d.nanos.tdiv nanosPerSecond

/-- What is left beside the whole seconds, with the sign of the duration. -/
def subsecond (d : Duration) : Int := d.nanos.tmod nanosPerSecond

def compare (a b : Duration) : Ordering := Ord.compare a.nanos b.nanos

/-- Seconds, with nine places when they are not whole. -/
def text (d : Duration) : List Char :=
  (if d.nanos < 0 then ['-'] else []) ++ ['P', 'T'] ++ decimal d.seconds.natAbs ++
    (if d.subsecond = 0 then [] else '.' :: padded 9 d.subsecond.natAbs) ++ ['S']

/-! ## Reading -/

/-- A part of a second: up to nine digits after the point. -/
def readPlaces (places : List Char) : Except AmountFault Nat :=
  if 9 < places.length then .error (.badFraction places)
  else match digitsFrom 0 places with
    | some n => .ok (n * Nat.pow 10 (9 - places.length))
    | none => .error (.badFraction places)

/-- Seconds with an optional part behind a point or a comma. The part has the sign that is written
before the whole seconds, also before a zero. -/
def readSeconds (number : List Char) : Except AmountFault Int := do
  let isPoint (c : Char) : Bool := c == '.' || c == ','
  let whole := number.takeWhile (!isPoint ·)
  let seconds ← wholeNumber 64 whole
  let part ← readPlaces ((number.dropWhile (!isPoint ·)).drop 1)
  let magnitude : Int := seconds.natAbs * nanosPerSecond + part
  return if whole.head? = some '-' then -magnitude else magnitude

/-- The nanoseconds of one component. -/
def componentNanos (c : Component) : Except AmountFault Int :=
  if c.unit = 'D' then (wholeNumber 64 c.number).map (· * 86400 * nanosPerSecond)
  else if c.unit = 'H' then (wholeNumber 64 c.number).map (· * 3600 * nanosPerSecond)
  else if c.unit = 'M' then (wholeNumber 64 c.number).map (· * 60 * nanosPerSecond)
  else readSeconds c.number

/-- The components add up. -/
def totalNanos (cs : List Component) : Except AmountFault Int :=
  cs.foldlM (fun total c => (componentNanos c).map (total + ·)) 0

def isTimeMark (c : Char) : Bool := c == 'T' || c == 't'

/-- The hours, minutes and seconds after the letter `T`, if it is there. -/
def readTimeSection (body : List Char) : Except AmountFault (Option (List Component)) :=
  match body.dropWhile (!isTimeMark ·) with
  | [] => .ok none
  | _ :: rest => do
    let cs ← components ['H', 'M', 'S'] rest
    if cs.isEmpty then .error .emptyTime else .ok (some cs)

/-- Reads a duration such as `P1DT2H30M` or `-PT0.5S`. -/
def read (s : List Char) : Except AmountFault Duration := do
  let (negative, body) ← splitDesignator s
  let days ← components ['D'] (body.takeWhile (!isTimeMark ·))
  let dayNanos ← totalNanos days
  let time ← readTimeSection body
  let timeNanos ← totalNanos (time.getD [])
  if days.isEmpty ∧ time.isNone then .error .emptyDuration
  else
    let total := dayNanos + timeNanos
    match of? (if negative then -total else total) with
    | some d => .ok d
    | none => .error .durationOverflow

end Duration

end RecordFilter.Calendar
