import RecordFilter.Calendar.Amount

/-!
# Periods

A period counts years, months and days of the calendar, each an integer of 32 bits. Weeks are read
as seven days each.
-/

namespace RecordFilter.Calendar

open RecordFilter.Text RecordFilter.Number

structure Period where
  years : Int
  months : Int
  days : Int
  deriving DecidableEq, Repr

namespace Period

/-- All three counts are always written. -/
def text (p : Period) : List Char :=
  'P' :: signedDecimal p.years ++ 'Y' :: signedDecimal p.months ++ 'M' ::
    signedDecimal p.days ++ ['D']

/-! ## Reading -/

/-- The counts as they are read, with weeks and days apart. -/
structure Counts where
  years : Int := 0
  months : Int := 0
  weeks : Int := 0
  days : Int := 0

def Counts.set (counts : Counts) (c : Component) : Except AmountFault Counts :=
  (wholeNumber 32 c.number).map fun n =>
    if c.unit = 'Y' then { counts with years := n }
    else if c.unit = 'M' then { counts with months := n }
    else if c.unit = 'W' then { counts with weeks := n }
    else { counts with days := n }

/-- The number itself where it is an integer of 32 bits. -/
def inRange (fault : AmountFault) (n : Int) : Except AmountFault Int :=
  if (IntegerRange.signed 32).Holds n then .ok n else .error fault

/-- Weeks go into days. Neither the days of the weeks nor the sum may leave the range. -/
def Counts.foldWeeks (c : Counts) : Except AmountFault Period := do
  let fromWeeks ← inRange .dayOverflow (c.weeks * 7)
  let days ← inRange .dayOverflow (fromWeeks + c.days)
  return ⟨c.years, c.months, days⟩

def negate (p : Period) : Except AmountFault Period := do
  return ⟨← inRange .periodOverflow (-p.years), ← inRange .periodOverflow (-p.months),
    ← inRange .periodOverflow (-p.days)⟩

/-- Reads a period such as `P1Y2M3W4D`. -/
def read (s : List Char) : Except AmountFault Period := do
  let (negative, body) ← splitDesignator s
  let cs ← components ['Y', 'M', 'W', 'D'] body
  if cs.isEmpty then .error .emptyPeriod
  else
    let counts ← cs.foldlM Counts.set {}
    let p ← counts.foldWeeks
    if negative then p.negate else return p

end Period

end RecordFilter.Calendar
