import RecordFilter.Proofs.Coercion.Instant
import RecordFilter.Proofs.Compile.RangeEnds

/-!
# Instants at several offsets

One moment reads differently at different offsets. A range from an instant consists of moments, so
it is the same from every reading of one moment, except that a strict test first goes on to the next
day of the reading, and the calendar can end before that day at one offset and behind it at another.
-/

namespace RecordFilter

open RecordFilter.Calendar

/-! ## Ranges of moments -/

theorem map_dayRange {α β : Type} (f : α → β) {le : α → α → Bool} {le' : β → β → Bool}
    {next previous : α → Option α} {next' previous' : β → Option β} {a : α} (floor ceiling : α)
    {op : Operator} (hle : ∀ a b, le a b = le' (f a) (f b))
    (hnext : op = .gt → (next a).map f = next' (f a))
    (hprevious : op = .lt → (previous a).map f = previous' (f a)) :
    (dayRange le next previous floor ceiling op a).map (Prod.map f f) =
      dayRange le' next' previous' (f floor) (f ceiling) op (f a) := by
  have hfilter : (fun r : α × α => le r.1 r.2) =
      (fun r : β × β => le' r.1 r.2) ∘ Prod.map f f := funext fun r => hle r.1 r.2
  unfold dayRange
  rw [hfilter, ← Option.filter_map]
  refine congrArg (Option.filter _) ?_
  cases op with
  | gt =>
    rw [← hnext rfl]
    cases next a <;> rfl
  | lt =>
    rw [← hprevious rfl]
    cases previous a <;> rfl
  | _ => rfl

theorem Calendar.Instant.moment_ofUtc (t : DateTime) : (Instant.ofUtc t).moment = t.moment := by
  rw [Instant.moment, Instant.ofUtc, Int.zero_mul, Int.sub_zero]

/-- Before the year 0 instants are only read in UTC, so there they read the same. -/
theorem Calendar.Instant.earliest_of_moment_eq {t u : Instant} (ht : t.Timestamped)
    (hu : u.Timestamped) (h : t.moment = u.moment) (hfirst : t.reading.date = .earliest) :
    u.reading.date = .earliest := by
  have htbounds := t.reading.time.nanos_bounds
  have hubounds := u.reading.time.nanos_bounds
  have hzero : t.offset = 0 := by
    rcases ht.origin with hzero | hyear
    · exact hzero
    · rw [hfirst] at hyear
      exact absurd hyear (by decide)
  rw [Instant.moment_eq, Instant.moment_eq, Instant.utcNanos, Instant.utcNanos, hzero,
    hfirst] at h
  rcases hu.origin with huzero | hyear
  · rw [huzero] at h
    rw [Date.eq_earliest_iff]
    omega
  · obtain ⟨hlow, hhigh⟩ := hu.near
    rw [Date.year_nonneg_iff] at hyear
    have hfar : Date.earliest.dayNumber + 3 ≤ Date.startOfYearZero.dayNumber := by decide
    rw [nanosPerSecond_eq] at h
    omega

/-- By its own reading the instant has the day that the test steps to. -/
def StepsFrom (op : Operator) (t : Instant) : Prop :=
  match op with
  | .gt => t.reading.date ≠ .latest
  | .lt => t.reading.date ≠ .earliest
  | _ => True

namespace Settings

/-- The first and the last moment that the settings give for ranges. -/
def firstMoment (s : Settings) : Int := (DateTime.atMidnight s.floor).moment

def lastMoment (s : Settings) : Int := (DateTime.atLastMoment s.ceiling).moment

/-- The moments of the range for an ordering test against an instant. -/
def momentRange (s : Settings) (op : Operator) (t : Instant) : Option (Int × Int) :=
  (s.instantRange op t).map (Prod.map Instant.moment Instant.moment)

/-- The moments of the range from `m` where the calendar has no end. -/
def reach (s : Settings) (op : Operator) (m : Int) : Option (Int × Int) :=
  dayRange (fun m n => decide (m ≤ n)) (fun m => some (m + nanosPerDay))
    (fun m => some (m - nanosPerDay)) s.firstMoment s.lastMoment op m

variable {s : Settings} {op : Operator} {t u : Instant}

theorem momentRange_of_stepsFrom (h : StepsFrom op t) :
    s.momentRange op t = s.reach op t.moment := by
  rw [momentRange, instantRange, reach, firstMoment, lastMoment, ← Instant.moment_ofUtc,
    ← Instant.moment_ofUtc]
  refine map_dayRange Instant.moment _ _ (fun _ _ => rfl) ?_ ?_
  · rintro rfl
    obtain ⟨n, hn⟩ := Option.ne_none_iff_exists'.mp (mt Instant.nextDay?_eq_none_iff.mp h)
    rw [hn, Option.map_some, Instant.moment_nextDay? hn]
  · rintro rfl
    obtain ⟨p, hp⟩ := Option.ne_none_iff_exists'.mp (mt Instant.previousDay?_eq_none_iff.mp h)
    rw [hp, Option.map_some, Instant.moment_previousDay? hp]

theorem momentRange_of_not_stepsFrom (h : ¬ StepsFrom op t) : s.momentRange op t = none := by
  unfold momentRange instantRange dayRange
  cases op with
  | gt =>
    rw [Instant.nextDay?_eq_none_iff.mpr (not_not.mp h)]
    rfl
  | lt =>
    rw [Instant.previousDay?_eq_none_iff.mpr (not_not.mp h)]
    rfl
  | _ => exact absurd trivial h

theorem momentRange_unique (hmoment : t.moment = u.moment) (ht : s.momentRange op t ≠ none)
    (hu : s.momentRange op u ≠ none) : s.momentRange op t = s.momentRange op u := by
  rw [momentRange_of_stepsFrom (not_not.mp (mt momentRange_of_not_stepsFrom ht)),
    momentRange_of_stepsFrom (not_not.mp (mt momentRange_of_not_stepsFrom hu)), hmoment]

/-- A strict test steps from both instants, or from neither, or out of all ranges. -/
def StepsAlike (s : Settings) (op : Operator) (t u : Instant) : Prop :=
  match op with
  | .gt => (t.reading.date = .latest ↔ u.reading.date = .latest) ∨
      s.lastMoment < t.moment + nanosPerDay
  | .lt => (t.reading.date = .earliest ↔ u.reading.date = .earliest) ∨
      t.moment - nanosPerDay < s.firstMoment
  | _ => True

theorem stepsAlike_iff : s.StepsAlike op t u ↔
    (StepsFrom op t ↔ StepsFrom op u) ∨ s.reach op t.moment = none := by
  cases op with
  | gt | lt => simp [StepsAlike, StepsFrom, reach, dayRange, not_iff_not]
  | _ => simp [StepsAlike, StepsFrom]

theorem momentRange_eq_iff (hmoment : t.moment = u.moment) :
    s.momentRange op t = s.momentRange op u ↔ s.StepsAlike op t u := by
  rw [stepsAlike_iff]
  by_cases ht : StepsFrom op t <;> by_cases hu : StepsFrom op u
  · simp [momentRange_of_stepsFrom ht, momentRange_of_stepsFrom hu, hmoment, ht, hu]
  · simp [momentRange_of_stepsFrom ht, momentRange_of_not_stepsFrom hu, ht, hu]
  · simp [momentRange_of_not_stepsFrom ht, momentRange_of_stepsFrom hu, hmoment, ht, hu,
      eq_comm (a := none)]
  · simp [momentRange_of_not_stepsFrom ht, momentRange_of_not_stepsFrom hu, ht, hu]

end Settings

/-! ## Rows -/

theorem Value.compare?_instant (v : Value) {t u : Instant} (h : t.moment = u.moment) :
    v.compare? (.instant t) = v.compare? (.instant u) := by
  cases v with
  | instant x => simp only [compare?, Instant.compare, h]
  | _ => rfl

theorem Check.holdsFor_instants (v : Value) {t t' u u' : Instant} (declared : FieldType)
    (hlow : t.moment = u.moment) (hhigh : t'.moment = u'.moment) :
    holdsFor v .between (.range ⟨.instant t, declared⟩ ⟨.instant t', declared⟩) =
      holdsFor v .between (.range ⟨.instant u, declared⟩ ⟨.instant u', declared⟩) := by
  simp only [holdsFor, orders, v.compare?_instant hlow, v.compare?_instant hhigh]

namespace Compiler

variable {c : Compiler} {root : Schema} {selector : String} {path : Path} {op : Operator}
  {t u : Instant}

/-- The expression for a range of instants. -/
def instantRangeExpr (path : Path) (range : Option (Instant × Instant)) : Expr :=
  rangeExpr path (range.map fun r => (.instant r.1, .instant r.2))

theorem eval_instantRangeExpr_congr {a b : Option (Instant × Instant)}
    (h : a.map (Prod.map Instant.moment Instant.moment) =
      b.map (Prod.map Instant.moment Instant.moment)) (row : Row) :
    (instantRangeExpr path a).eval row = (instantRangeExpr path b).eval row := by
  cases a with
  | none =>
    rw [Option.map_eq_none_iff.mp h.symm]
  | some r =>
    obtain ⟨r', rfl, hr'⟩ := Option.map_eq_some_iff.mp h.symm
    obtain ⟨hlow, hhigh⟩ := Prod.mk.inj hr'
    simp only [instantRangeExpr, rangeExpr, Option.map_some, Expr.eval, Check.eval, Check.passes,
      Check.holdsFor_instants _ path.terminal hlow hhigh]

theorem exists_eval_ne (path : Path) {r : Instant × Instant} (hordered : r.1 ≤ r.2) :
    ∃ row, (instantRangeExpr path none).eval row ≠ (instantRangeExpr path (some r)).eval row := by
  have hin : (instantRangeExpr path (some r)).eval (fun _ => some (.instant r.1)) = true :=
    (eval_rangeExpr_iff comparable_instant rfl (some r)).mpr
      ⟨r, rfl, Instant.le_refl r.1, hordered⟩
  refine ⟨fun _ => some (.instant r.1), ?_⟩
  rw [hin]
  exact Bool.false_ne_true

theorem forall_eval_eq_iff {s : Settings} (hmoment : t.moment = u.moment) :
    (∀ row, (instantRangeExpr path (s.instantRange op t)).eval row =
        (instantRangeExpr path (s.instantRange op u)).eval row) ↔ s.StepsAlike op t u := by
  rw [← Settings.momentRange_eq_iff hmoment]
  refine ⟨fun h => ?_, eval_instantRangeExpr_congr⟩
  -- From one moment there is one range at most, so two that differ are a range and none.
  cases ht : s.instantRange op t with
  | none =>
    cases hu : s.instantRange op u with
    | none => rw [Settings.momentRange, Settings.momentRange, ht, hu]
    | some r =>
      obtain ⟨row, hrow⟩ := exists_eval_ne path (le_of_dayRange daySteps_instant hu)
      rw [ht, hu] at h
      exact absurd (h row) hrow
  | some r =>
    cases hu : s.instantRange op u with
    | none =>
      obtain ⟨row, hrow⟩ := exists_eval_ne path (le_of_dayRange daySteps_instant ht)
      rw [ht, hu] at h
      exact absurd (h row).symm hrow
    | some r' =>
      refine Settings.momentRange_unique hmoment ?_ ?_
      · rw [Settings.momentRange, ht]
        exact Option.some_ne_none _
      · rw [Settings.momentRange, hu]
        exact Option.some_ne_none _

/-- Two operands of one moment select the same rows unless a strict test finds the calendar at its
end for one of them alone. -/
theorem sameRows_iff_stepsAlike {raw raw' : String} (hpath : c.resolve root selector = .ok path)
    (hinstant : path.terminal = .scalar .instant)
    (ht : c.coercer.coerce path.terminal raw = .ok ⟨.instant t, path.terminal⟩)
    (hu : c.coercer.coerce path.terminal raw' = .ok ⟨.instant u, path.terminal⟩)
    (hsame : (Value.instant t).same (.instant u) = true) (hop : op ∈ [.gt, .ge, .lt, .le]) :
    ∃ e e', c.compile root (.test selector op [raw]) = .ok e ∧
      c.compile root (.test selector op [raw']) = .ok e' ∧
        ((∀ row, e.eval row = e'.eval row) ↔ c.settings.StepsAlike op t u) ∧
          (c.coercer.IsStandard → op ≠ .gt → ∀ row, e.eval row = e'.eval row) := by
  have hmoment : t.moment = u.moment := by
    simp only [Value.same, Instant.compare, beq_iff_eq] at hsame
    exact Int.compare_eq_eq.mp hsame
  have hwidened : path.terminal.isWidened = true := by rw [hinstant]; rfl
  have hordered := FieldType.isOrdered_of_isWidened hwidened
  refine ⟨_, _, compile_rangeExpr hpath hop hordered hwidened ht rfl,
    compile_rangeExpr hpath hop hordered hwidened hu rfl, forall_eval_eq_iff hmoment, ?_⟩
  intro hstandard hne
  refine (forall_eval_eq_iff hmoment).mpr ?_
  rw [hinstant] at ht hu
  have htimestamped :=
    Strategy.timestamped_readInstant _ t (hstandard.coerce_instant_eq_ok_iff.mp ht)
  have hutimestamped :=
    Strategy.timestamped_readInstant _ u (hstandard.coerce_instant_eq_ok_iff.mp hu)
  cases op with
  | gt => exact absurd rfl hne
  | lt => exact .inl ⟨Instant.earliest_of_moment_eq htimestamped hutimestamped hmoment,
      Instant.earliest_of_moment_eq hutimestamped htimestamped hmoment.symm⟩
  | _ => trivial

def logins : Schema :=
  .mk "Login" [⟨"at", none, .scalar .instant, .single, .scalar, none⟩] []

def loginPath : Path := ⟨"Login", [⟨"at", "at", .scalar⟩], .scalar .instant⟩

theorem validTime_noon : ValidTime 12 0 0 0 := by decide

/-- Noon on a leap day two hours ahead of UTC, and ten o'clock in UTC. -/
def noonAhead : Instant :=
  ⟨⟨⟨2028, 2, 29, Coercer.validDate_leapDay⟩, ⟨12, 0, 0, 0, validTime_noon⟩⟩, 7200⟩

def tenInUtc : Instant :=
  .ofUtc ⟨⟨2028, 2, 29, Coercer.validDate_leapDay⟩, ⟨10, 0, 0, 0, by decide⟩⟩

theorem logins_sameRows :
    resolve ⟨{}, .standard⟩ logins "at" = .ok loginPath ∧
      loginPath.terminal = .scalar .instant ∧
      Coercer.standard.coerce loginPath.terminal "2028-02-29T12:00:00+02:00" =
        .ok ⟨.instant noonAhead, loginPath.terminal⟩ ∧
      Coercer.standard.coerce loginPath.terminal "2028-02-29T10:00:00Z" =
        .ok ⟨.instant tenInUtc, loginPath.terminal⟩ ∧
      (Value.instant noonAhead).same (.instant tenInUtc) = true ∧
      Coercer.standard.IsStandard ∧
      ∃ e e',
        compile ⟨{}, .standard⟩ logins (.test "at" .lt ["2028-02-29T12:00:00+02:00"]) = .ok e ∧
        compile ⟨{}, .standard⟩ logins (.test "at" .lt ["2028-02-29T10:00:00Z"]) = .ok e' ∧
          ((∀ row, e.eval row = e'.eval row) ↔ Settings.StepsAlike {} .lt noonAhead tenInUtc) ∧
          (∀ row, e.eval row = e'.eval row) := by
  have hpath : resolve ⟨{}, .standard⟩ logins "at" = .ok loginPath := rfl
  have hahead : Coercer.standard.coerce loginPath.terminal "2028-02-29T12:00:00+02:00" =
      .ok ⟨.instant noonAhead, loginPath.terminal⟩ := rfl
  have hutc : Coercer.standard.coerce loginPath.terminal "2028-02-29T10:00:00Z" =
      .ok ⟨.instant tenInUtc, loginPath.terminal⟩ := rfl
  have hsame : (Value.instant noonAhead).same (.instant tenInUtc) = true := rfl
  have hop : Operator.lt ∈ [Operator.gt, .ge, .lt, .le] := by simp
  have hstandard := Coercer.isStandard_standard
  obtain ⟨e, e', he, he', hiff, hall⟩ := sameRows_iff_stepsAlike hpath rfl hahead hutc hsame hop
  exact ⟨hpath, rfl, hahead, hutc, hsame, hstandard, e, e', he, he', hiff,
    hall hstandard (by decide)⟩

/-- Half an hour before the last day of the calendar in UTC. -/
def lastEve : Instant := .ofUtc ⟨⟨9999, 12, 30, by decide⟩, ⟨23, 30, 0, 0, by decide⟩⟩

/-- The same moment an hour ahead of UTC, half an hour into the last day. -/
def lastMorning : Instant := ⟨⟨Date.latest, ⟨0, 30, 0, 0, by decide⟩⟩, 3600⟩

/-- The same moment on the day after the eve. -/
def lastEvening : Instant := .ofUtc ⟨Date.latest, ⟨23, 30, 0, 0, by decide⟩⟩

/-- The calendar ends a day earlier for an operand that is written an hour ahead of UTC. -/
theorem logins_lastEve_differ :
    (Coercer.standard.coerce loginPath.terminal "9999-12-30T23:30:00Z" =
        .ok ⟨.instant lastEve, loginPath.terminal⟩ ∧
      Coercer.standard.coerce loginPath.terminal "9999-12-31T00:30:00+01:00" =
        .ok ⟨.instant lastMorning, loginPath.terminal⟩ ∧
      (Value.instant lastEve).same (.instant lastMorning) = true) ∧
    ∃ e e', compile ⟨{}, .standard⟩ logins (.test "at" .gt ["9999-12-30T23:30:00Z"]) = .ok e ∧
      compile ⟨{}, .standard⟩ logins (.test "at" .gt ["9999-12-31T00:30:00+01:00"]) = .ok e' ∧
      e.eval (fun _ => some (.instant lastEvening)) = true ∧
      e'.eval (fun _ => some (.instant lastEvening)) = false := by
  have hpath : resolve ⟨{}, .standard⟩ logins "at" = .ok loginPath := rfl
  have heve : Coercer.standard.coerce loginPath.terminal "9999-12-30T23:30:00Z" =
      .ok ⟨.instant lastEve, loginPath.terminal⟩ := rfl
  have hmorning : Coercer.standard.coerce loginPath.terminal "9999-12-31T00:30:00+01:00" =
      .ok ⟨.instant lastMorning, loginPath.terminal⟩ := rfl
  have hrange : Settings.instantRange {} .gt lastEve =
      some (lastEvening, .ofUtc (.atLastMoment Date.latest)) := rfl
  refine ⟨⟨heve, hmorning, rfl⟩, _, _,
    compile_rangeExpr hpath (by simp) rfl rfl heve rfl,
    compile_rangeExpr hpath (by simp) rfl rfl hmorning rfl, ?_, rfl⟩
  refine (eval_rangeExpr_iff comparable_instant rfl (Settings.instantRange {} .gt lastEve)).mpr ?_
  exact ⟨_, hrange, Instant.le_refl lastEvening, Instant.le_iff_moment.mpr (by decide)⟩

end Compiler

end RecordFilter
