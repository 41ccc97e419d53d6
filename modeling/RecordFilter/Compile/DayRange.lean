import RecordFilter.Filter.Basic
import RecordFilter.Settings.Basic
import RecordFilter.Value.Basic

/-!
# Ranges of days

An ordering test against a value with a calendar day becomes a range between the ends that the
settings give. A strict test moves its bound by one day. A range that would be empty is none.
-/

namespace RecordFilter

open RecordFilter.Calendar

/-- The range for an ordering test against `value`. -/
def dayRange {α : Type} (le : α → α → Bool) (next previous : α → Option α) (floor ceiling : α)
    (op : Operator) (value : α) : Option (α × α) :=
  let range := match op with
    | .gt => (next value).map (·, ceiling)
    | .ge => some (value, ceiling)
    | .lt => (previous value).map (floor, ·)
    | _ => some (floor, value)
  range.filter fun r => le r.1 r.2

namespace Settings

def dateRange (s : Settings) (op : Operator) (d : Date) : Option (Date × Date) :=
  dayRange Date.le Date.next? Date.previous? s.floor s.ceiling op d

def dateTimeRange (s : Settings) (op : Operator) (t : DateTime) : Option (DateTime × DateTime) :=
  dayRange DateTime.le DateTime.nextDay? DateTime.previousDay? (.atMidnight s.floor)
    (.atLastMoment s.ceiling) op t

def instantRange (s : Settings) (op : Operator) (t : Instant) : Option (Instant × Instant) :=
  dayRange Instant.le Instant.nextDay? Instant.previousDay? (.ofUtc (.atMidnight s.floor))
    (.ofUtc (.atLastMoment s.ceiling)) op t

/-- The range of values for an ordering test against a value with a calendar day. -/
def valueRange (s : Settings) (op : Operator) : Value → Option (Value × Value)
  | .date d => (s.dateRange op d).map fun r => (.date r.1, .date r.2)
  | .datetime t => (s.dateTimeRange op t).map fun r => (.datetime r.1, .datetime r.2)
  | .instant t => (s.instantRange op t).map fun r => (.instant r.1, .instant r.2)
  | _ => none

end Settings

end RecordFilter
