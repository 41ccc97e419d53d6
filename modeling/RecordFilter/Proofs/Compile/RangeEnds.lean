import RecordFilter.Proofs.Compile.DayRange

/-!
# The ends of ranges

A range of days runs from the bound that its operand gives to the end that the settings give on the
other side. So the operand decides whether the range stays between the ends: its bound is not moved
to an end that it lies beyond.
-/

namespace RecordFilter

open RecordFilter.Calendar

/-! ## Ranges of one kind of values -/

/-- Values in order that have a value a day before and a day after, as far as the calendar goes. -/
structure DaySteps {α : Type} [LE α] (le : α → α → Bool) (next previous : α → Option α) : Prop where
  refl : ∀ a : α, a ≤ a
  trans : ∀ {a b c : α}, a ≤ b → b ≤ c → a ≤ c
  le_iff : ∀ a b, le a b = true ↔ a ≤ b
  le_next : ∀ {a b}, next a = some b → a ≤ b
  previous_le : ∀ {a b}, previous a = some b → b ≤ a

theorem daySteps_date : DaySteps Date.le Date.next? Date.previous? where
  refl := Date.le_refl
  trans := Date.le_trans
  le_iff _ _ := Date.le_eq_true_iff
  le_next h := .inl (Date.lt_of_next? h)
  previous_le h := .inl (Date.lt_of_next? (Date.next?_of_previous? h))

theorem daySteps_dateTime : DaySteps DateTime.le DateTime.nextDay? DateTime.previousDay? where
  refl := DateTime.le_refl
  trans := DateTime.le_trans
  le_iff _ _ := DateTime.le_eq_true_iff
  le_next := DateTime.le_of_nextDay?
  previous_le := DateTime.le_of_previousDay?

theorem daySteps_instant : DaySteps Instant.le Instant.nextDay? Instant.previousDay? where
  refl := Instant.le_refl
  trans := Instant.le_trans
  le_iff _ _ := Instant.le_eq_true_iff
  le_next h := by
    rw [Instant.le_iff_moment, Instant.moment_nextDay? h]
    omega
  previous_le h := by
    rw [Instant.le_iff_moment, Instant.moment_previousDay? h]
    omega

/-- The bound that an operand gives to its side of a range: the operand itself, or for a strict
test the value a day behind or before it, as far as the calendar goes. -/
def Operator.bound? {α : Type} (next previous : α → Option α) (operand : α) : Operator → Option α
  | .gt => next operand
  | .lt => previous operand
  | _ => some operand

section

variable {α : Type} [LE α] {le : α → α → Bool} {next previous : α → Option α}
  {floor ceiling operand bound : α} {op : Operator} {r : α × α}

theorem dayRange_up_eq_some_iff (hsteps : DaySteps le next previous) (hop : op ∈ [.gt, .ge]) :
    dayRange le next previous floor ceiling op operand = some r ↔
      op.bound? next previous operand = some r.1 ∧ r.2 = ceiling ∧ r.1 ≤ r.2 := by
  obtain ⟨low, high⟩ := r
  unfold dayRange
  rw [Option.filter_eq_some_iff, hsteps.le_iff, ← and_assoc]
  refine and_congr_left fun _ => ?_
  simp only [List.mem_cons, List.not_mem_nil, or_false] at hop
  rcases hop with rfl | rfl
  · simp [Operator.bound?, @eq_comm _ ceiling]
  · simp [Operator.bound?, @eq_comm _ ceiling]

theorem dayRange_down_eq_some_iff (hsteps : DaySteps le next previous) (hop : op ∈ [.lt, .le]) :
    dayRange le next previous floor ceiling op operand = some r ↔
      r.1 = floor ∧ op.bound? next previous operand = some r.2 ∧ r.1 ≤ r.2 := by
  obtain ⟨low, high⟩ := r
  unfold dayRange
  rw [Option.filter_eq_some_iff, hsteps.le_iff, ← and_assoc]
  refine and_congr_left fun _ => ?_
  simp only [List.mem_cons, List.not_mem_nil, or_false] at hop
  rcases hop with rfl | rfl
  · simp [Operator.bound?, and_comm, eq_comm]
  · simp [Operator.bound?, eq_comm]

theorem le_of_dayRange (hsteps : DaySteps le next previous)
    (h : dayRange le next previous floor ceiling op operand = some r) : r.1 ≤ r.2 :=
  (hsteps.le_iff r.1 r.2).mp (Option.filter_eq_some_iff.mp h).2

theorem le_bound (hsteps : DaySteps le next previous) (hop : op ∈ [.gt, .ge])
    (h : op.bound? next previous operand = some bound) : operand ≤ bound := by
  simp only [List.mem_cons, List.not_mem_nil, or_false] at hop
  rcases hop with rfl | rfl
  · exact hsteps.le_next h
  · cases h
    exact hsteps.refl operand

theorem bound_le (hsteps : DaySteps le next previous) (hop : op ∈ [.lt, .le])
    (h : op.bound? next previous operand = some bound) : bound ≤ operand := by
  simp only [List.mem_cons, List.not_mem_nil, or_false] at hop
  rcases hop with rfl | rfl
  · exact hsteps.previous_le h
  · cases h
    exact hsteps.refl operand

end

/-! ## Ranges of values -/

/-- The bound that a value with a calendar day gives to its side of a range. -/
def Value.bound? (op : Operator) : Value → Option Value
  | .date d => (op.bound? Date.next? Date.previous? d).map .date
  | .datetime t => (op.bound? DateTime.nextDay? DateTime.previousDay? t).map .datetime
  | .instant t => (op.bound? Instant.nextDay? Instant.previousDay? t).map .instant
  | _ => none

/-- The first value is not behind the second, as the evaluator compares them. -/
def Value.AtMost (a b : Value) : Prop := ∃ o, a.compare? b = some o ∧ o ≠ .gt

theorem Comparable.atMost_iff {α : Type} [LE α] {make : α → Value} (hmake : Comparable make)
    {a b : α} : (make a).AtMost (make b) ↔ a ≤ b := by
  obtain ⟨o, ho, hle, -⟩ := hmake.compare a b
  rw [Value.AtMost, ho, ← hle, bne_iff_ne]
  simp

namespace Settings

/-- Where ranges of values like this one begin that are open to the past. -/
def first (s : Settings) : Value → Value
  | .date _ => .date s.floor
  | .datetime _ => .datetime (.atMidnight s.floor)
  | .instant _ => .instant (.ofUtc (.atMidnight s.floor))
  | v => v

/-- Where ranges of values like this one end that are open to the future. -/
def last (s : Settings) : Value → Value
  | .date _ => .date s.ceiling
  | .datetime _ => .datetime (.atLastMoment s.ceiling)
  | .instant _ => .instant (.ofUtc (.atLastMoment s.ceiling))
  | v => v

/-- The range is in order and between the ends of the settings. -/
def Encloses (s : Settings) (low high : Value) : Prop :=
  (s.first low).AtMost low ∧ low.AtMost high ∧ high.AtMost (s.last high)

/-- A range against this operand is not empty: the operand has a bound, and the end of the settings
on the open side is not on the wrong side of it. -/
def HasRange (s : Settings) (op : Operator) (operand : Value) : Prop :=
  ∃ bound, operand.bound? op = some bound ∧
    (op ∈ [.gt, .ge] → bound.AtMost (s.last operand)) ∧
    (op ∈ [.lt, .le] → (s.first operand).AtMost bound)

/-- A range runs from the bound of its operand to the end of the settings on the open side, and it
is in order. It lies between both ends of the settings just if the bound is not beyond the one on
its own side. From an operand that is not beyond it the bound is not either. -/
structure EndsWell (s : Settings) (op : Operator) (operand low high : Value) : Prop where
  low_le : low.AtMost high
  up : op ∈ [.gt, .ge] →
    operand.bound? op = some low ∧ high = s.last operand ∧
      (s.Encloses low high ↔ (s.first operand).AtMost low) ∧
      ((s.first operand).AtMost operand → s.Encloses low high)
  down : op ∈ [.lt, .le] →
    low = s.first operand ∧ operand.bound? op = some high ∧
      (s.Encloses low high ↔ high.AtMost (s.last operand)) ∧
      (operand.AtMost (s.last operand) → s.Encloses low high)

/-- The values that `make` gives have ranges under these settings. -/
structure Ranges (s : Settings) {α : Type} [LE α] (make : α → Value) (le : α → α → Bool)
    (next previous : α → Option α) (floor ceiling : α) : Prop where
  comparable : Comparable make
  steps : DaySteps le next previous
  first : ∀ a, s.first (make a) = make floor
  last : ∀ a, s.last (make a) = make ceiling
  bound : ∀ op a, (make a).bound? op = (op.bound? next previous a).map make
  range : ∀ op a, s.valueRange op (make a) =
    (dayRange le next previous floor ceiling op a).map fun r => (make r.1, make r.2)

variable {s : Settings} {op : Operator}

theorem ranges_date : s.Ranges Value.date Date.le Date.next? Date.previous? s.floor s.ceiling :=
  ⟨comparable_date, daySteps_date, fun _ => rfl, fun _ => rfl, fun _ _ => rfl, fun _ _ => rfl⟩

theorem ranges_datetime : s.Ranges Value.datetime DateTime.le DateTime.nextDay?
    DateTime.previousDay? (.atMidnight s.floor) (.atLastMoment s.ceiling) :=
  ⟨comparable_datetime, daySteps_dateTime, fun _ => rfl, fun _ => rfl, fun _ _ => rfl,
    fun _ _ => rfl⟩

theorem ranges_instant : s.Ranges Value.instant Instant.le Instant.nextDay? Instant.previousDay?
    (.ofUtc (.atMidnight s.floor)) (.ofUtc (.atLastMoment s.ceiling)) :=
  ⟨comparable_instant, daySteps_instant, fun _ => rfl, fun _ => rfl, fun _ _ => rfl,
    fun _ _ => rfl⟩

namespace Ranges

variable {α : Type} [LE α] {make : α → Value} {le : α → α → Bool} {next previous : α → Option α}
  {floor ceiling operand : α} (hr : s.Ranges make le next previous floor ceiling)

include hr

theorem encloses_iff {low high : α} :
    s.Encloses (make low) (make high) ↔ floor ≤ low ∧ low ≤ high ∧ high ≤ ceiling := by
  have hle {a b : α} : (make a).AtMost (make b) ↔ a ≤ b := hr.comparable.atMost_iff
  rw [Encloses, hr.first, hr.last, hle, hle, hle]

theorem hasRange_iff : s.HasRange op (make operand) ↔
    ∃ bound, op.bound? next previous operand = some bound ∧
      (op ∈ [.gt, .ge] → bound ≤ ceiling) ∧ (op ∈ [.lt, .le] → floor ≤ bound) := by
  have hle {a b : α} : (make a).AtMost (make b) ↔ a ≤ b := hr.comparable.atMost_iff
  simp only [HasRange, hr.bound, hr.first, hr.last, Option.map_eq_some_iff, exists_exists_and_eq_and,
    hle]

theorem isSome_valueRange_iff (hop : op ∈ [.gt, .ge, .lt, .le]) :
    (s.valueRange op (make operand)).isSome = true ↔ s.HasRange op (make operand) := by
  rw [hr.range, Option.isSome_map, hr.hasRange_iff, Option.isSome_iff_exists]
  have hsides : op ∈ [.gt, .ge] ∧ op ∉ [.lt, .le] ∨ op ∈ [.lt, .le] ∧ op ∉ [.gt, .ge] := by
    simp only [List.mem_cons, List.not_mem_nil, or_false] at hop
    rcases hop with rfl | rfl | rfl | rfl <;> simp
  rcases hsides with ⟨hup, hdown⟩ | ⟨hdown, hup⟩
  · simp [dayRange_up_eq_some_iff hr.steps hup, hup, hdown]
  · simp [dayRange_down_eq_some_iff hr.steps hdown, hup, hdown]

theorem endsWell {low high : Value} (h : s.valueRange op (make operand) = some (low, high)) :
    s.EndsWell op (make operand) low high := by
  have hle {a b : α} : (make a).AtMost (make b) ↔ a ≤ b := hr.comparable.atMost_iff
  rw [hr.range] at h
  obtain ⟨⟨low, high⟩, hrange, heq⟩ := Option.map_eq_some_iff.mp h
  cases heq
  have hordered : low ≤ high := le_of_dayRange hr.steps hrange
  refine ⟨hle.mpr hordered, fun hop => ?_, fun hop => ?_⟩
  · obtain ⟨hbound, rfl, -⟩ := (dayRange_up_eq_some_iff hr.steps hop).mp hrange
    have hencloses : s.Encloses (make low) (make high) ↔ floor ≤ low := by
      rw [hr.encloses_iff]
      exact ⟨And.left, fun hlow => ⟨hlow, hordered, hr.steps.refl high⟩⟩
    rw [hr.bound, hbound, hencloses, hr.first, hr.last, hle, hle]
    exact ⟨rfl, rfl, Iff.rfl, fun hfloor => hr.steps.trans hfloor (le_bound hr.steps hop hbound)⟩
  · obtain ⟨rfl, hbound, -⟩ := (dayRange_down_eq_some_iff hr.steps hop).mp hrange
    have hencloses : s.Encloses (make low) (make high) ↔ high ≤ ceiling := by
      rw [hr.encloses_iff]
      exact ⟨fun h => h.2.2, fun hhigh => ⟨hr.steps.refl low, hordered, hhigh⟩⟩
    rw [hr.bound, hbound, hencloses, hr.first, hr.last, hle, hle]
    exact ⟨rfl, rfl, Iff.rfl, fun hceiling =>
      hr.steps.trans (bound_le hr.steps hop hbound) hceiling⟩

end Ranges

theorem isSome_valueRange_iff (hop : op ∈ [.gt, .ge, .lt, .le]) (v : Value) :
    (s.valueRange op v).isSome = true ↔ s.HasRange op v := by
  cases v with
  | date d => exact ranges_date.isSome_valueRange_iff hop
  | datetime t => exact ranges_datetime.isSome_valueRange_iff hop
  | instant t => exact ranges_instant.isSome_valueRange_iff hop
  | _ => simp [valueRange, HasRange, Value.bound?]

theorem endsWell_of_valueRange {v low high : Value} (h : s.valueRange op v = some (low, high)) :
    s.EndsWell op v low high := by
  cases v with
  | date d => exact ranges_date.endsWell h
  | datetime t => exact ranges_datetime.endsWell h
  | instant t => exact ranges_instant.endsWell h
  | _ => cases h

end Settings

/-! ## Compiled ranges -/

namespace Compiler

variable {c : Compiler} {root : Schema} {selector raw : String} {path : Path} {op : Operator}

/-- An ordering test on days compiles to a range from the bound of its operand to the end of the
settings on the open side, or to none if that would be empty. -/
theorem endsWell_of_compile (hpath : c.resolve root selector = .ok path)
    (hwidened : path.terminal.isWidened = true) (hop : op ∈ [.gt, .ge, .lt, .le]) {v : TypedValue}
    (hcoerce : c.coercer.coerce path.terminal raw = .ok v) (hnull : v.value.isNull = false) :
    ∃ e, c.compile root (.test selector op [raw]) = .ok e ∧
      (∀ check ∈ e.checks, ∃ low high,
        check = ⟨path, .between, .range ⟨low, path.terminal⟩ ⟨high, path.terminal⟩⟩ ∧
          c.settings.EndsWell op v.value low high) ∧
        (e.checks ≠ [] ↔ c.settings.HasRange op v.value) := by
  have hordered := FieldType.isOrdered_of_isWidened hwidened
  refine ⟨_, compile_rangeExpr hpath hop hordered hwidened hcoerce hnull, ?_, ?_⟩
  · intro check hcheck
    cases hrange : c.settings.valueRange op v.value with
    | none =>
      rw [hrange] at hcheck
      exact absurd hcheck List.not_mem_nil
    | some r =>
      rw [hrange] at hcheck
      exact ⟨r.1, r.2, List.mem_singleton.mp hcheck, Settings.endsWell_of_valueRange hrange⟩
  · rw [← Settings.isSome_valueRange_iff hop]
    cases c.settings.valueRange op v.value with
    | none => exact iff_of_false (fun h => h rfl) nofun
    | some r => exact iff_of_true (List.cons_ne_nil _ _) rfl

def dayPath : Path := ⟨"Meeting", [⟨"day", "day", .scalar⟩], .scalar .date⟩

/-- Settings for the days of one year. -/
def leapYear : Settings where
  floor := ⟨2024, 1, 1, by decide⟩
  ceiling := ⟨2024, 12, 31, by decide⟩

theorem validDate_leapDay : ValidDate 2024 2 29 := by decide

def leapDay : Date := ⟨2024, 2, 29, validDate_leapDay⟩

theorem meetings_endsWell :
    resolve ⟨leapYear, .standard⟩ meetings "day" = .ok dayPath ∧
      dayPath.terminal.isWidened = true ∧
      Coercer.standard.coerce dayPath.terminal "29/02/2024" =
        .ok ⟨.date leapDay, dayPath.terminal⟩ ∧
      Value.bound? .gt (.date leapDay) = some (.date ⟨2024, 3, 1, by decide⟩) ∧
      ∃ e, compile ⟨leapYear, .standard⟩ meetings (.test "day" .gt ["29/02/2024"]) = .ok e ∧
        (∀ check ∈ e.checks, ∃ low high,
          check = ⟨dayPath, .between, .range ⟨low, dayPath.terminal⟩ ⟨high, dayPath.terminal⟩⟩ ∧
            leapYear.EndsWell .gt (.date leapDay) low high) ∧
          e.checks ≠ [] := by
  have hday : resolve ⟨leapYear, .standard⟩ meetings "day" = .ok dayPath := rfl
  have hcoerce : Coercer.standard.coerce dayPath.terminal "29/02/2024" =
      .ok ⟨.date leapDay, dayPath.terminal⟩ := rfl
  have hbound : Value.bound? .gt (.date leapDay) = some (.date ⟨2024, 3, 1, by decide⟩) := rfl
  have hrange : leapYear.HasRange .gt (.date leapDay) := by
    refine ⟨_, hbound, fun _ => ?_, by simp⟩
    exact comparable_date.atMost_iff.mpr (Date.le_iff_rank.mpr (by decide))
  have hop : Operator.gt ∈ [Operator.gt, .ge, .lt, .le] := by simp
  obtain ⟨e, he, hends, hsome⟩ := endsWell_of_compile hday rfl hop hcoerce rfl
  exact ⟨hday, rfl, hcoerce, hbound, e, he, hends, hsome.mpr hrange⟩

/-- An operand before the floor begins its range there, and one behind the ceiling ends it there. -/
theorem meetings_not_enclosed :
    (leapYear.floor ≤ leapYear.ceiling ∧
      compile ⟨leapYear, .standard⟩ meetings (.test "day" .ge ["2020-06-01"]) =
        .ok (rangeExpr dayPath (some (.date ⟨2020, 6, 1, by decide⟩, .date leapYear.ceiling))) ∧
      ¬ leapYear.Encloses (.date ⟨2020, 6, 1, by decide⟩) (.date leapYear.ceiling)) ∧
    compile ⟨leapYear, .standard⟩ meetings (.test "day" .le ["2028-06-01"]) =
        .ok (rangeExpr dayPath (some (.date leapYear.floor, .date ⟨2028, 6, 1, by decide⟩))) ∧
      ¬ leapYear.Encloses (.date leapYear.floor) (.date ⟨2028, 6, 1, by decide⟩) := by
  have hordered : leapYear.floor ≤ leapYear.ceiling := Date.le_iff_rank.mpr (by decide)
  refine ⟨⟨hordered, rfl, ?_⟩, rfl, ?_⟩
  · rintro ⟨hfirst, -, -⟩
    exact absurd (Date.le_iff_rank.mp (comparable_date.atMost_iff.mp hfirst)) (by decide)
  · rintro ⟨-, -, hlast⟩
    exact absurd (Date.le_iff_rank.mp (comparable_date.atMost_iff.mp hlast)) (by decide)

end Compiler

end RecordFilter
