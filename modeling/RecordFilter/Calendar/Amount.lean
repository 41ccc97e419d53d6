import RecordFilter.Number.Integer

/-!
# Amounts of time

The written form that durations and periods share: an optional sign, the letter `P`, and numbers
that are each followed by the letter of their unit. Units come in a fixed order, each at most once,
in capitals or small letters.
-/

namespace RecordFilter.Calendar

open RecordFilter.Text RecordFilter.Number

/-- Why a text is no amount of time. -/
inductive AmountFault
  | missingDesignator
  | unexpected (unit : Char)
  | outOfOrder (unit : Char)
  | noValue (unit : Char)
  | dangling (rest : List Char)
  | badNumber (number : List Char)
  | badFraction (places : List Char)
  | emptyTime
  | emptyDuration
  | emptyPeriod
  | durationOverflow
  | periodOverflow
  | dayOverflow
  deriving DecidableEq, Repr

def AmountFault.message : AmountFault → String
  | .missingDesignator => "missing 'P' designator"
  | .unexpected c => "unexpected designator '" ++ c.toString ++ "'"
  | .outOfOrder c => "designator '" ++ c.toString ++ "' out of order"
  | .noValue c => "designator '" ++ c.toString ++ "' has no value"
  | .dangling s => "dangling value '" ++ String.ofList s ++ "'"
  | .badNumber s => "invalid number '" ++ String.ofList s ++ "'"
  | .badFraction s => "invalid fractional seconds '" ++ String.ofList s ++ "'"
  | .emptyTime => "empty time section after 'T'"
  | .emptyDuration => "duration has no components"
  | .emptyPeriod => "period has no components"
  | .durationOverflow => "duration overflow"
  | .periodOverflow => "period overflow"
  | .dayOverflow => "period day overflow"

/-- A number as it is written, with the capital letter of its unit. -/
structure Component where
  number : List Char
  unit : Char
  deriving DecidableEq, Repr

/-- Whether the amount is negative, and what follows the letter `P`. -/
def splitDesignator (s : List Char) : Except AmountFault (Bool × List Char) :=
  let (negative, rest) := match s with
    | '-' :: t => (true, t)
    | '+' :: t => (false, t)
    | t => (false, t)
  match rest with
  | c :: body => if c = 'P' ∨ c = 'p' then .ok (negative, body) else .error .missingDesignator
  | [] => .error .missingDesignator

/-- Reads components whose units come from `units` in that order. `number` is what was read since
the last unit, and `used` is how many units may not come any more. -/
def readComponents (units : List Char) (used : Nat) (number : List Char) :
    List Char → Except AmountFault (List Component)
  | [] => if number.isEmpty then .ok [] else .error (.dangling number)
  | c :: rest =>
    if c.isAlpha then
      match units.idxOf? c.toUpper with
      | none => .error (.unexpected c)
      | some rank =>
        if rank < used then .error (.outOfOrder c)
        else if number.isEmpty then .error (.noValue c)
        else (readComponents units (rank + 1) [] rest).map (⟨number, c.toUpper⟩ :: ·)
    else
      readComponents units used (number ++ [c]) rest

/-- The components of the text. -/
def components (units : List Char) (s : List Char) : Except AmountFault (List Component) :=
  readComponents units 0 [] s

/-- A whole number of `bits` bits in a component. -/
def wholeNumber (bits : Nat) (s : List Char) : Except AmountFault Int :=
  match (IntegerRange.signed bits).read s with
  | .ok n => .ok n
  | .error _ => .error (.badNumber s)

end RecordFilter.Calendar
