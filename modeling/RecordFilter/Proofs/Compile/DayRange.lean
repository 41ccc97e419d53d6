import RecordFilter.Proofs.Calendar.Order
import RecordFilter.Proofs.Compile.Clauses

/-!
# Ordering tests on days

An ordering test against a date or a date-time is compiled to a range. Between the ends that the
settings give, a row is in the range just where its value stands to the operand as the operator
says.
-/

namespace RecordFilter

open RecordFilter.Calendar

/-- What an ordering operator says of a value and its operand. -/
def Operator.Relates {α : Type} [LT α] [LE α] : Operator → α → α → Prop
  | .gt, x, operand => operand < x
  | .ge, x, operand => operand ≤ x
  | .lt, x, operand => x < operand
  | .le, x, operand => x ≤ operand
  | _, _, _ => False

/-! ## The values of a range -/

/-- The range is there and `x` is in it. -/
def InRange {α : Type} [LE α] (range : Option (α × α)) (x : α) : Prop :=
  ∃ r, range = some r ∧ r.1 ≤ x ∧ x ≤ r.2

section

variable {α : Type} [LE α] {le : α → α → Bool} {next previous : α → Option α}
  {floor ceiling operand x : α}

theorem inRange_filter_iff (htrans : ∀ {a b c : α}, a ≤ b → b ≤ c → a ≤ c)
    (hle : ∀ a b, le a b = true ↔ a ≤ b) (range : Option (α × α)) :
    InRange (range.filter fun r => le r.1 r.2) x ↔ InRange range x := by
  refine exists_congr fun r => ?_
  rw [Option.filter_eq_some_iff, hle]
  constructor
  · rintro ⟨⟨hrange, -⟩, hx⟩
    exact ⟨hrange, hx⟩
  · rintro ⟨hrange, hx⟩
    exact ⟨⟨hrange, htrans hx.1 hx.2⟩, hx⟩

theorem inRange_dayRange_iff (htrans : ∀ {a b c : α}, a ≤ b → b ≤ c → a ≤ c)
    (hle : ∀ a b, le a b = true ↔ a ≤ b) (hfloor : floor ≤ x) (hceiling : x ≤ ceiling)
    (op : Operator) :
    InRange (dayRange le next previous floor ceiling op operand) x ↔
      match op with
      | .gt => ∃ n, next operand = some n ∧ n ≤ x
      | .ge => operand ≤ x
      | .lt => ∃ p, previous operand = some p ∧ x ≤ p
      | _ => x ≤ operand := by
  unfold dayRange
  rw [inRange_filter_iff htrans hle]
  cases op <;> simp [InRange, hfloor, hceiling]

end

namespace Settings

variable {s : Settings} {op : Operator}

theorem inRange_dateRange_iff (hop : op ∈ [.gt, .ge, .lt, .le]) {d x : Date}
    (hfloor : s.floor ≤ x) (hceiling : x ≤ s.ceiling) :
    InRange (s.dateRange op d) x ↔ op.Relates x d := by
  rw [dateRange, inRange_dayRange_iff Date.le_trans (fun _ _ => Date.le_eq_true_iff) hfloor
    hceiling op]
  simp only [List.mem_cons, List.not_mem_nil, or_false] at hop
  rcases hop with rfl | rfl | rfl | rfl
  · show (∃ n, d.next? = some n ∧ n ≤ x) ↔ d < x
    cases hnext : d.next? with
    | none => simp [Date.next?_eq_none_iff.mp hnext, x.not_latest_lt]
    | some n => simp [Date.le_iff_of_next? hnext]
  · exact Iff.rfl
  · show (∃ p, d.previous? = some p ∧ x ≤ p) ↔ x < d
    cases hprevious : d.previous? with
    | none => simp [Date.previous?_eq_none_iff.mp hprevious, x.not_lt_earliest]
    | some p => simp [Date.le_iff_of_previous? hprevious]
  · exact Iff.rfl

theorem inRange_dateTimeRange_iff (hop : op ∈ [.ge, .le]) {t x : DateTime}
    (hfloor : .atMidnight s.floor ≤ x) (hceiling : x ≤ .atLastMoment s.ceiling) :
    InRange (s.dateTimeRange op t) x ↔ op.Relates x t := by
  rw [dateTimeRange, inRange_dayRange_iff DateTime.le_trans (fun _ _ => DateTime.le_eq_true_iff)
    hfloor hceiling op]
  simp only [List.mem_cons, List.not_mem_nil, or_false] at hop
  rcases hop with rfl | rfl
  · exact Iff.rfl
  · exact Iff.rfl

end Settings

/-! ## Rows in a range -/

/-- The values that `make` gives compare with each other, and as `≤` says. -/
structure Comparable {α : Type} [LE α] (make : α → Value) : Prop where
  compare : ∀ a b, ∃ o, (make a).compare? (make b) = some o ∧
    ((o != .gt) = true ↔ a ≤ b) ∧ ((o != .lt) = true ↔ b ≤ a)
  offered : ∀ path a, Check.offered path (some (make a)) = [make a]
  notNull : ∀ a, (make a).isNull = false

theorem compare_ne_gt_iff {m n : Int} : (compare m n != .gt) = true ↔ m ≤ n := by
  rw [bne_iff_ne, Int.compare_ne_gt]

theorem compare_ne_lt_iff {m n : Int} : (compare m n != .lt) = true ↔ n ≤ m := by
  rw [bne_iff_ne, Int.compare_ne_lt]

theorem comparable_date : Comparable Value.date where
  compare a b := by
    refine ⟨a.compare b, rfl, ?_⟩
    rw [Date.compare, Date.le_iff_rank, Date.le_iff_rank]
    exact ⟨compare_ne_gt_iff, compare_ne_lt_iff⟩
  offered _ _ := rfl
  notNull _ := rfl

theorem comparable_datetime : Comparable Value.datetime where
  compare a b := by
    refine ⟨a.compare b, rfl, ?_⟩
    rw [DateTime.compare, DateTime.le_iff_rank, DateTime.le_iff_rank]
    exact ⟨compare_ne_gt_iff, compare_ne_lt_iff⟩
  offered _ _ := rfl
  notNull _ := rfl

theorem comparable_instant : Comparable Value.instant where
  compare a b := ⟨a.compare b, rfl, compare_ne_gt_iff, compare_ne_lt_iff⟩
  offered _ _ := rfl
  notNull _ := rfl

theorem FieldType.isOrdered_of_isWidened {t : FieldType} (h : t.isWidened = true) :
    t.isOrdered = true := by
  cases t with
  | scalar t =>
    cases t with
    | date | datetime | instant => rfl
    | _ => cases h
  | _ => cases h

namespace Compiler

/-- The expression for a range of values at the path. -/
def rangeExpr (path : Path) : Option (Value × Value) → Expr
  | some (low, high) =>
    .check ⟨path, .between, .range ⟨low, path.terminal⟩ ⟨high, path.terminal⟩⟩
  | none => .never

theorem eval_rangeExpr_iff {α : Type} [LE α] {make : α → Value} (hmake : Comparable make)
    {path : Path} {row : Row} {x : α} (hrow : row path.dotted = some (make x))
    (range : Option (α × α)) :
    (rangeExpr path (range.map fun r => (make r.1, make r.2))).eval row = true ↔
      InRange range x := by
  cases range with
  | none => simp [rangeExpr, Expr.never, Expr.eval, Expr.evalAny, InRange]
  | some r =>
    obtain ⟨o, ho, -, hlow⟩ := hmake.compare x r.1
    obtain ⟨o', ho', hhigh, -⟩ := hmake.compare x r.2
    simp only [rangeExpr, Option.map_some, Expr.eval, Check.eval, hrow, hmake.offered,
      List.any_cons, List.any_nil, Bool.or_false, Check.passes, hmake.notNull, Bool.not_false,
      Bool.true_and, Check.holdsFor, Check.orders, ho, ho', Bool.and_eq_true, hlow, hhigh]
    simp [InRange]

variable {c : Compiler} {root : Schema} {selector raw : String} {path : Path} {op : Operator}

theorem compile_rangeExpr (hpath : c.resolve root selector = .ok path)
    (hop : op ∈ [.gt, .ge, .lt, .le]) (hordered : path.terminal.isOrdered = true)
    (hwidened : path.terminal.isWidened = true) {v : TypedValue}
    (hv : c.coercer.coerce path.terminal raw = .ok v) (hnull : v.value.isNull = false) :
    c.compile root (.test selector op [raw]) =
      .ok (rangeExpr path (c.settings.valueRange op v.value)) := by
  rw [compile_test_eq_ok_iff hpath, lower_ordering hop]
  unfold lowerOrdering
  simp only [hordered, hwidened, hv, hnull, bind, Except.bind, Bool.not_true, Bool.false_eq_true,
    if_false, if_true]
  cases c.settings.valueRange op v.value <;> rfl

/-- The comparison compiles. Of the rows with one value between `floor` and `ceiling` at the path,
it matches just those whose value stands to the operand as the operator says. -/
def SelectsByOrder {α : Type} [LT α] [LE α] (c : Compiler) (root : Schema) (selector raw : String)
    (path : Path) (make : α → Value) (floor ceiling operand : α) (op : Operator) : Prop :=
  ∃ e, c.compile root (.test selector op [raw]) = .ok e ∧
    ∀ row x, row path.dotted = some (make x) → floor ≤ x → x ≤ ceiling →
      (e.eval row = true ↔ op.Relates x operand)

/-- All ordering tests on dates follow the order of dates, and so do those on date-times that are
not strict. -/
theorem selectsByOrder_of_day (hpath : c.resolve root selector = .ok path) (raw : String) :
    (∀ d, path.terminal = .scalar .date →
      c.coercer.coerce path.terminal raw = .ok ⟨.date d, path.terminal⟩ →
        ∀ op ∈ [.gt, .ge, .lt, .le], SelectsByOrder c root selector raw path .date
          c.settings.floor c.settings.ceiling d op) ∧
      ∀ t, path.terminal = .scalar .datetime →
        c.coercer.coerce path.terminal raw = .ok ⟨.datetime t, path.terminal⟩ →
          ∀ op ∈ [.ge, .le], SelectsByOrder c root selector raw path .datetime
            (.atMidnight c.settings.floor) (.atLastMoment c.settings.ceiling) t op := by
  constructor
  · intro d hdate hcoerce op hop
    have hwidened : path.terminal.isWidened = true := by rw [hdate]; rfl
    have hordered : path.terminal.isOrdered = true := by rw [hdate]; rfl
    refine ⟨_, compile_rangeExpr hpath hop hordered hwidened hcoerce rfl, ?_⟩
    intro row x hrow hfloor hceiling
    exact (eval_rangeExpr_iff comparable_date hrow _).trans
      (Settings.inRange_dateRange_iff hop hfloor hceiling)
  · intro t hdatetime hcoerce op hop
    have hordering : [Operator.ge, .le] ⊆ [.gt, .ge, .lt, .le] := by simp
    have hwidened : path.terminal.isWidened = true := by rw [hdatetime]; rfl
    have hordered : path.terminal.isOrdered = true := by rw [hdatetime]; rfl
    refine ⟨_, compile_rangeExpr hpath (hordering hop) hordered hwidened hcoerce rfl, ?_⟩
    intro row x hrow hfloor hceiling
    exact (eval_rangeExpr_iff comparable_datetime hrow _).trans
      (Settings.inRange_dateTimeRange_iff hop hfloor hceiling)

def meetings : Schema :=
  .mk "Meeting"
    [⟨"day", none, .scalar .date, .single, .scalar, none⟩,
      ⟨"start", none, .scalar .datetime, .single, .scalar, none⟩] []

/-- The last day of the calendar as a strict bound, and a start before all ranges. -/
theorem meetings_selected :
    (resolve ⟨{}, .standard⟩ meetings "day" =
        .ok ⟨"Meeting", [⟨"day", "day", .scalar⟩], .scalar .date⟩ ∧
      Coercer.standard.coerce (.scalar .date) "31/12/9999" =
        .ok ⟨.date Date.latest, .scalar .date⟩ ∧
      SelectsByOrder ⟨{}, .standard⟩ meetings "day" "31/12/9999"
        ⟨"Meeting", [⟨"day", "day", .scalar⟩], .scalar .date⟩ .date
        ⟨5, 1, 1, by decide⟩ Date.latest Date.latest .gt) ∧
    resolve ⟨{}, .standard⟩ meetings "start" =
        .ok ⟨"Meeting", [⟨"start", "start", .scalar⟩], .scalar .datetime⟩ ∧
      Coercer.standard.coerce (.scalar .datetime) "0004-06-01 12:00" =
        .ok ⟨.datetime ⟨⟨4, 6, 1, by decide⟩, ⟨12, 0, 0, 0, by decide⟩⟩, .scalar .datetime⟩ ∧
      SelectsByOrder ⟨{}, .standard⟩ meetings "start" "0004-06-01 12:00"
        ⟨"Meeting", [⟨"start", "start", .scalar⟩], .scalar .datetime⟩ .datetime
        (.atMidnight ⟨5, 1, 1, by decide⟩) (.atLastMoment Date.latest)
        ⟨⟨4, 6, 1, by decide⟩, ⟨12, 0, 0, 0, by decide⟩⟩ .ge := by
  have hday : resolve ⟨{}, .standard⟩ meetings "day" =
      .ok ⟨"Meeting", [⟨"day", "day", .scalar⟩], .scalar .date⟩ := rfl
  have hstart : resolve ⟨{}, .standard⟩ meetings "start" =
      .ok ⟨"Meeting", [⟨"start", "start", .scalar⟩], .scalar .datetime⟩ := rfl
  refine ⟨⟨hday, rfl, ?_⟩, hstart, rfl, ?_⟩
  · exact (selectsByOrder_of_day hday "31/12/9999").1 Date.latest rfl rfl .gt (by simp)
  · exact (selectsByOrder_of_day hstart "0004-06-01 12:00").2 _ rfl rfl .ge (by simp)

end Compiler

end RecordFilter
