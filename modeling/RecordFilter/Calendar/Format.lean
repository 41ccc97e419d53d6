import RecordFilter.Calendar.DateTime

/-!
# Reading dates and times

A format is a list of parts, read one after the other. Dates, date-times and times of day are tried
against their formats in order, and the first format that reads the whole text wins. Instants are
read in the form of RFC 3339, or as milliseconds since the start of 1970.
-/

namespace RecordFilter.Calendar

open RecordFilter.Text

/-! ## Parts -/

inductive Part
  /-- Four digits behind an optional sign. -/
  | year
  /-- Four digits. -/
  | plainYear
  /-- Two digits each. -/
  | month
  | day
  | hour
  | minute
  | second
  /-- One or more digits after the point. Places beyond the ninth are dropped. -/
  | fraction
  | mark (c : Char)
  /-- Any one ASCII character. -/
  | anyMark
  deriving DecidableEq, Repr

/-- What has been read so far. -/
structure Reading where
  year : Int := 0
  month : Nat := 0
  day : Nat := 0
  hour : Nat := 0
  minute : Nat := 0
  second : Nat := 0
  nanosecond : Nat := 0

/-- Exactly `count` digits, and the rest of the text. -/
def takeDigits (count : Nat) (s : List Char) : Option (Nat × List Char) :=
  if (s.take count).length = count then
    (digitsFrom 0 (s.take count)).map fun n => (n, s.drop count)
  else none

/-- The nanoseconds of the places after the point. -/
def fractionNanos (digits : List Char) : Nat :=
  ((digitsFrom 0 ((digits ++ List.replicate 9 '0').take 9)).getD 0)

/-- Reads one part at the front of the text. -/
def Part.read : Part → Reading → List Char → Option (Reading × List Char)
  | .year, r, s =>
    match s with
    | '-' :: t => (takeDigits 4 t).map fun (n, t) => ({ r with year := -(n : Int) }, t)
    | '+' :: t => (takeDigits 4 t).map fun (n, t) => ({ r with year := n }, t)
    | t => (takeDigits 4 t).map fun (n, t) => ({ r with year := n }, t)
  | .plainYear, r, s => (takeDigits 4 s).map fun (n, t) => ({ r with year := n }, t)
  | .month, r, s => (takeDigits 2 s).map fun (n, t) => ({ r with month := n }, t)
  | .day, r, s => (takeDigits 2 s).map fun (n, t) => ({ r with day := n }, t)
  | .hour, r, s => (takeDigits 2 s).map fun (n, t) => ({ r with hour := n }, t)
  | .minute, r, s => (takeDigits 2 s).map fun (n, t) => ({ r with minute := n }, t)
  | .second, r, s => (takeDigits 2 s).map fun (n, t) => ({ r with second := n }, t)
  | .fraction, r, s =>
    let digits := s.takeWhile isDigit
    if digits.isEmpty then none
    else some ({ r with nanosecond := fractionNanos digits }, s.dropWhile isDigit)
  | .mark c, r, s =>
    match s with
    | d :: t => if d = c then some (r, t) else none
    | [] => none
  | .anyMark, r, s =>
    match s with
    | d :: t => if d.toNat < 0x80 then some (r, t) else none
    | [] => none

/-- Reads the parts at the front of the text. -/
def readFront : List Part → Reading → List Char → Option (Reading × List Char)
  | [], r, s => some (r, s)
  | p :: ps, r, s => (p.read r s).bind fun (r, s) => readFront ps r s

/-- Reads the whole text as the parts. -/
def readWhole (parts : List Part) (s : List Char) : Option Reading :=
  (readFront parts {} s).bind fun (r, rest) => if rest.isEmpty then some r else none

namespace Reading

def date? (r : Reading) : Option Date := Date.of? r.year r.month r.day

def time? (r : Reading) : Option TimeOfDay := TimeOfDay.of? r.hour r.minute r.second r.nanosecond

def dateTime? (r : Reading) : Option DateTime :=
  r.date?.bind fun d => r.time?.map fun t => ⟨d, t⟩

end Reading

/-! ## Formats -/

def yearMonthDay : List Part := [.year, .mark '-', .month, .mark '-', .day]

def daySlashMonth : List Part := [.day, .mark '/', .month, .mark '/', .year]

def dateFormats : List (List Part) :=
  [yearMonthDay, daySlashMonth, [.day, .mark '-', .month, .mark '-', .year],
    [.month, .mark '/', .day, .mark '/', .year]]

def hourMinute : List Part := [.hour, .mark ':', .minute]

def hourMinuteSecond : List Part := hourMinute ++ [.mark ':', .second]

def hourToFraction : List Part := hourMinuteSecond ++ [.mark '.', .fraction]

def timeFormats : List (List Part) := [hourMinuteSecond, hourToFraction, hourMinute]

def dateTimeFormats : List (List Part) :=
  [yearMonthDay ++ .mark 'T' :: hourMinute,
    yearMonthDay ++ .mark 'T' :: hourMinuteSecond,
    yearMonthDay ++ .mark 'T' :: hourToFraction,
    yearMonthDay ++ .mark ' ' :: hourMinuteSecond,
    yearMonthDay ++ .mark ' ' :: hourMinute,
    daySlashMonth ++ .mark ' ' :: hourMinuteSecond,
    daySlashMonth ++ .mark ' ' :: hourMinute]

def readDate? (s : List Char) : Option Date :=
  dateFormats.findSome? fun f => (readWhole f s).bind Reading.date?

def readTime? (s : List Char) : Option TimeOfDay :=
  timeFormats.findSome? fun f => (readWhole f s).bind Reading.time?

/-- A bare date stands for its midnight. -/
def readDateTime? (s : List Char) : Option DateTime :=
  (dateTimeFormats.findSome? fun f => (readWhole f s).bind Reading.dateTime?).or
    ((readDate? s).map .atMidnight)

/-- Reads a date in the one form year, month, day. -/
def readPlainDate? (s : List Char) : Option Date := (readWhole yearMonthDay s).bind Reading.date?

/-! ## Instants -/

/-- `Z`, or a sign with hours and minutes, at the end of the text. The offset is in seconds. -/
def readOffset? : List Char → Option Int
  | [c] => if c = 'Z' ∨ c = 'z' then some 0 else none
  | sign :: s =>
    (readWhole hourMinute s).bind fun r =>
      if r.hour ≤ 23 ∧ r.minute ≤ 59 then
        let seconds : Int := (r.hour * 60 + r.minute) * 60
        if sign = '+' then some seconds else if sign = '-' then some (-seconds) else none
      else none
  | [] => none

/-- The fraction after the seconds, if there is one. -/
def readFraction? (r : Reading) (s : List Char) : Option (Reading × List Char) :=
  match s with
  | '.' :: t => Part.fraction.read r t
  | _ => some (r, s)

/-- A leap second is only allowed where it can be: at the end of a month in UTC. It is read as the
nanosecond before. -/
def leapSecond? (r : Reading) (offset : Int) : Option Instant :=
  ({ r with second := 59, nanosecond := 999999999 } : Reading).dateTime?.bind fun t =>
    let i : Instant := ⟨t, offset⟩
    i.utc?.bind fun u => if u.date.isMonthEnd ∧ u.time = .lastMoment then some i else none

/-- Reads an instant in the form of RFC 3339. -/
def readTimestamp? (s : List Char) : Option Instant := do
  let front := [.plainYear, .mark '-', .month, .mark '-', .day, .anyMark] ++ hourMinuteSecond
  let (r, s) ← readFront front {} s
  let (r, s) ← readFraction? r s
  let offset ← readOffset? s
  if r.second = 60 then leapSecond? r offset
  else r.dateTime?.map fun t => ⟨t, offset⟩

/-- The instant `millis` milliseconds after the start of 1970. -/
def ofMillis? (millis : Int) : Option Instant := (DateTime.ofMoment? (millis * 1000000)).map .ofUtc

end RecordFilter.Calendar
