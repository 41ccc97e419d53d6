import RecordFilter.Calendar.Date

/-!
# Settings

What can be chosen about compiling: the limit on paths, the wildcard, the ends of the calendar
ranges, and whether a keyword may only be sent to associations that exist.
-/

namespace RecordFilter

open RecordFilter.Calendar

structure Settings where
  /-- How many steps a path may take, aliases included. -/
  maxDepth : UInt64 := 32
  wildcard : Char := '*'
  /-- The first day of the ranges of days that are open to the past. -/
  floor : Date := ⟨5, 1, 1, by decide⟩
  /-- The last day of the ranges of days that are open to the future. -/
  ceiling : Date := ⟨9999, 12, 31, by decide⟩
  strictPropagation : Bool := false
  deriving DecidableEq, Repr

/-- A rule that the settings break. -/
inductive SettingsError
  | zeroDepth
  | invertedRange (floor ceiling : Date)
  deriving DecidableEq, Repr

def SettingsError.message : SettingsError → String
  | zeroDepth => "invalid compiler config: max_path_depth must be at least 1"
  | invertedRange floor ceiling =>
    "invalid compiler config: range_floor " ++ String.ofList floor.text ++
      " is after range_ceiling " ++ String.ofList ceiling.text

namespace Settings

/-- The rules for settings that were read from a document. -/
def check (s : Settings) : Except SettingsError Unit :=
  if s.maxDepth = 0 then .error .zeroDepth
  else if s.floor.le s.ceiling then .ok ()
  else .error (.invertedRange s.floor s.ceiling)

end Settings

end RecordFilter
