import RecordFilter.Proofs.Coercion.Temporal
import RecordFilter.Proofs.Compile.DayRange

/-!
# Strict tests on date-times

A strict test on date-times moves its bound by one day and keeps the time of day. So a row passes
where it is on a later (or earlier) day than the operand, except that on the very next day its time
of day counts too. From a bare date, which is a midnight, no time of day is earlier.
-/

namespace RecordFilter

open RecordFilter.Calendar

/-! ## A day further on -/

namespace Calendar

theorem TimeOfDay.nanos_midnight : TimeOfDay.midnight.nanos = 0 := by decide

namespace DateTime

variable {t x : DateTime}

theorem nextDay?_le_iff : (∃ u, t.nextDay? = some u ∧ u ≤ x) ↔
    t.date < x.date ∧ (t.date.next? = some x.date → t.time.nanos ≤ x.time.nanos) := by
  unfold nextDay?
  cases hnext : t.date.next? with
  | none =>
    have hlast := x.date.not_latest_lt
    rw [← Date.next?_eq_none_iff.mp hnext] at hlast
    simp [hlast]
  | some d =>
    have hstep := Date.le_iff_of_next? (x := x.date) hnext
    simp only [Option.map_some, Option.some.injEq, exists_eq_left', le_iff, ← hstep, Date.le_iff]
    constructor
    · rintro (hday | ⟨rfl, htime⟩)
      · exact ⟨.inl hday, fun heq => absurd heq (Date.ne_of_lt hday)⟩
      · exact ⟨.inr rfl, fun _ => htime⟩
    · rintro ⟨hday | rfl, htime⟩
      · exact .inl hday
      · exact .inr ⟨rfl, htime rfl⟩

theorem le_previousDay?_iff : (∃ u, t.previousDay? = some u ∧ x ≤ u) ↔
    x.date < t.date ∧ (t.date.previous? = some x.date → x.time.nanos ≤ t.time.nanos) := by
  unfold previousDay?
  cases hprevious : t.date.previous? with
  | none =>
    have hfirst := x.date.not_lt_earliest
    rw [← Date.previous?_eq_none_iff.mp hprevious] at hfirst
    simp [hfirst]
  | some d =>
    have hstep := Date.le_iff_of_previous? (x := x.date) hprevious
    simp only [Option.map_some, Option.some.injEq, exists_eq_left', le_iff, ← hstep, Date.le_iff]
    constructor
    · rintro (hday | ⟨rfl, htime⟩)
      · exact ⟨.inl hday, fun heq => absurd heq.symm (Date.ne_of_lt hday)⟩
      · exact ⟨.inr rfl, fun _ => htime⟩
    · rintro ⟨hday | rfl, htime⟩
      · exact .inl hday
      · exact .inr ⟨rfl, htime rfl⟩

end DateTime

end Calendar

/-! ## Rows -/

namespace Compiler

variable {c : Compiler} {root : Schema} {selector raw : String} {path : Path} {op : Operator}
  {t : DateTime}

/-- The comparison compiles. Of the rows with one date-time at the path, between the ends that the
settings give, it matches just those whose date-time is accepted. -/
def SelectsDateTimes (c : Compiler) (root : Schema) (selector raw : String) (path : Path)
    (op : Operator) (accepted : DateTime → Prop) : Prop :=
  ∃ e, c.compile root (.test selector op [raw]) = .ok e ∧
    ∀ row x, row path.dotted = some (.datetime x) → .atMidnight c.settings.floor ≤ x →
      x ≤ .atLastMoment c.settings.ceiling → (e.eval row = true ↔ accepted x)

theorem SelectsDateTimes.congr {p q : DateTime → Prop}
    (h : SelectsDateTimes c root selector raw path op p) (hpq : ∀ x, p x ↔ q x) :
    SelectsDateTimes c root selector raw path op q := by
  obtain ⟨e, he, hrows⟩ := h
  exact ⟨e, he, fun row x hrow hfloor hceiling =>
    (hrows row x hrow hfloor hceiling).trans (hpq x)⟩

theorem SelectsDateTimes.unique {p q : DateTime → Prop}
    (hp : SelectsDateTimes c root selector raw path op p)
    (hq : SelectsDateTimes c root selector raw path op q) (x : DateTime)
    (hfloor : .atMidnight c.settings.floor ≤ x) (hceiling : x ≤ .atLastMoment c.settings.ceiling) :
    p x ↔ q x := by
  obtain ⟨e, he, hrows⟩ := hp
  obtain ⟨e', he', hrows'⟩ := hq
  cases he.symm.trans he'
  have hrow := hrows (fun _ => some (.datetime x)) x rfl hfloor hceiling
  exact hrow.symm.trans (hrows' _ x rfl hfloor hceiling)

theorem selectsDateTimes_of_range (hpath : c.resolve root selector = .ok path)
    (hdatetime : path.terminal = .scalar .datetime)
    (hcoerce : c.coercer.coerce path.terminal raw = .ok ⟨.datetime t, path.terminal⟩)
    (hop : op ∈ [.gt, .ge, .lt, .le]) {accepted : DateTime → Prop}
    (haccepted : ∀ x, .atMidnight c.settings.floor ≤ x → x ≤ .atLastMoment c.settings.ceiling →
      (InRange (c.settings.dateTimeRange op t) x ↔ accepted x)) :
    SelectsDateTimes c root selector raw path op accepted := by
  have hwidened : path.terminal.isWidened = true := by rw [hdatetime]; rfl
  refine ⟨_, compile_rangeExpr hpath hop (FieldType.isOrdered_of_isWidened hwidened) hwidened
    hcoerce rfl, ?_⟩
  intro row x hrow hfloor hceiling
  exact (eval_rangeExpr_iff comparable_datetime hrow _).trans (haccepted x hfloor hceiling)

theorem selectsDateTimes_gt (hpath : c.resolve root selector = .ok path)
    (hdatetime : path.terminal = .scalar .datetime)
    (hcoerce : c.coercer.coerce path.terminal raw = .ok ⟨.datetime t, path.terminal⟩) :
    SelectsDateTimes c root selector raw path .gt fun x =>
      t.date < x.date ∧ (t.date.next? = some x.date → t.time.nanos ≤ x.time.nanos) :=
  selectsDateTimes_of_range hpath hdatetime hcoerce (by simp) fun _ hfloor hceiling =>
    (inRange_dayRange_iff DateTime.le_trans (fun _ _ => DateTime.le_eq_true_iff) hfloor hceiling
      .gt).trans DateTime.nextDay?_le_iff

theorem selectsDateTimes_lt (hpath : c.resolve root selector = .ok path)
    (hdatetime : path.terminal = .scalar .datetime)
    (hcoerce : c.coercer.coerce path.terminal raw = .ok ⟨.datetime t, path.terminal⟩) :
    SelectsDateTimes c root selector raw path .lt fun x =>
      x.date < t.date ∧ (t.date.previous? = some x.date → x.time.nanos ≤ t.time.nanos) :=
  selectsDateTimes_of_range hpath hdatetime hcoerce (by simp) fun _ hfloor hceiling =>
    (inRange_dayRange_iff DateTime.le_trans (fun _ _ => DateTime.le_eq_true_iff) hfloor hceiling
      .lt).trans DateTime.le_previousDay?_iff

/-- A strict test selects the rows of later or earlier days, less those on the neighbouring day that
are on the near side of the operand's time of day. A bare date is its midnight, and the rows behind
it are those of later days. -/
theorem selectsDateTimes_of_strict (hpath : c.resolve root selector = .ok path)
    (hdatetime : path.terminal = .scalar .datetime)
    (hcoerce : c.coercer.coerce path.terminal raw = .ok ⟨.datetime t, path.terminal⟩) :
    SelectsDateTimes c root selector raw path .gt (fun x =>
        t.date < x.date ∧ (t.date.next? = some x.date → t.time.nanos ≤ x.time.nanos)) ∧
      SelectsDateTimes c root selector raw path .lt (fun x =>
        x.date < t.date ∧ (t.date.previous? = some x.date → x.time.nanos ≤ t.time.nanos)) ∧
      ∀ d, c.coercer.IsStandard →
        c.coercer.coerce (.scalar .date) raw = .ok ⟨.date d, .scalar .date⟩ →
          t = .atMidnight d ∧
            SelectsDateTimes c root selector raw path .gt (fun x => d < x.date) := by
  have hgt := selectsDateTimes_gt hpath hdatetime hcoerce
  refine ⟨hgt, selectsDateTimes_lt hpath hdatetime hcoerce, fun d hstandard hdate => ?_⟩
  have hmidnight := hstandard.coerce_datetime_of_date hdate
  rw [hdatetime, hmidnight] at hcoerce
  cases hcoerce
  refine ⟨rfl, hgt.congr fun x => and_iff_left fun _ => ?_⟩
  show TimeOfDay.midnight.nanos ≤ x.time.nanos
  rw [TimeOfDay.nanos_midnight]
  exact Nat.zero_le _

def halfPastEight : DateTime := ⟨⟨2024, 3, 10, by decide⟩, ⟨8, 30, 0, 0, by decide⟩⟩

def startPath : Path := ⟨"Meeting", [⟨"start", "start", .scalar⟩], .scalar .datetime⟩

/-- Half past eight, and a bare date. -/
theorem meetings_strict :
    (resolve ⟨{}, .standard⟩ meetings "start" = .ok startPath ∧
        startPath.terminal = .scalar .datetime) ∧
      (Coercer.standard.coerce startPath.terminal "2024-03-10 08:30" =
          .ok ⟨.datetime halfPastEight, startPath.terminal⟩ ∧
        SelectsDateTimes ⟨{}, .standard⟩ meetings "start" "2024-03-10 08:30" startPath .gt (fun x =>
          halfPastEight.date < x.date ∧ (halfPastEight.date.next? = some x.date →
            halfPastEight.time.nanos ≤ x.time.nanos))) ∧
      Coercer.standard.coerce startPath.terminal "10/03/2024" =
          .ok ⟨.datetime (.atMidnight halfPastEight.date), startPath.terminal⟩ ∧
        Coercer.standard.IsStandard ∧
        Coercer.standard.coerce (.scalar .date) "10/03/2024" =
          .ok ⟨.date halfPastEight.date, .scalar .date⟩ ∧
        SelectsDateTimes ⟨{}, .standard⟩ meetings "start" "10/03/2024" startPath .gt
          (fun x => halfPastEight.date < x.date) := by
  have hstart : resolve ⟨{}, .standard⟩ meetings "start" = .ok startPath := rfl
  have hcoerce : Coercer.standard.coerce startPath.terminal "2024-03-10 08:30" =
      .ok ⟨.datetime halfPastEight, startPath.terminal⟩ := rfl
  have hbare : Coercer.standard.coerce startPath.terminal "10/03/2024" =
      .ok ⟨.datetime (.atMidnight halfPastEight.date), startPath.terminal⟩ := rfl
  have hdate : Coercer.standard.coerce (.scalar .date) "10/03/2024" =
      .ok ⟨.date halfPastEight.date, .scalar .date⟩ := rfl
  have hstandard := Coercer.isStandard_standard
  refine ⟨⟨hstart, rfl⟩, ⟨hcoerce, (selectsDateTimes_of_strict hstart rfl hcoerce).1⟩,
    hbare, hstandard, hdate, ?_⟩
  exact ((selectsDateTimes_of_strict hstart rfl hbare).2.2 _ hstandard hdate).2

/-- The day alone does not decide: the first moment of the next day is left out, and so is the last
moment of the day before. -/
theorem meetings_halfPastEight_missed :
    ¬ SelectsDateTimes ⟨{}, .standard⟩ meetings "start" "2024-03-10 08:30" startPath .gt
        (fun x => halfPastEight.date < x.date) ∧
      ¬ SelectsDateTimes ⟨{}, .standard⟩ meetings "start" "2024-03-10 08:30" startPath .lt
        (fun x => x.date < halfPastEight.date) := by
  have hstart : resolve ⟨{}, .standard⟩ meetings "start" = .ok startPath := rfl
  have hcoerce : Coercer.standard.coerce startPath.terminal "2024-03-10 08:30" =
      .ok ⟨.datetime halfPastEight, startPath.terminal⟩ := rfl
  constructor
  · intro hday
    have hagree := hday.unique (selectsDateTimes_gt hstart rfl hcoerce)
      (.atMidnight ⟨2024, 3, 11, by decide⟩)
      (DateTime.le_iff_rank.mpr (by decide)) (DateTime.le_iff_rank.mpr (by decide))
    exact absurd ((hagree.mp (Date.lt_iff_rank.mpr (by decide))).2 rfl) (by decide)
  · intro hday
    have hagree := hday.unique (selectsDateTimes_lt hstart rfl hcoerce)
      (.atLastMoment ⟨2024, 3, 9, by decide⟩)
      (DateTime.le_iff_rank.mpr (by decide)) (DateTime.le_iff_rank.mpr (by decide))
    exact absurd ((hagree.mp (Date.lt_iff_rank.mpr (by decide))).2 rfl) (by decide)

end Compiler

end RecordFilter
