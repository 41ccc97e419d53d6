import RecordFilter.Expr.Eval
import RecordFilter.Render.Document
import RecordFilter.Render.Sql

/-!
# Tests and their operands

Each test has a shape of operand that goes with it. Where tests and operands of an expression are
paired so, the evaluator and the renderers find a case for each check.
-/

namespace RecordFilter

/-- The operand goes with the test. -/
inductive Paired : Test → Operand → Prop
  | presence {test : Test} (htest : test = .isNull ∨ test = .isNotNull) : Paired test .none
  | comparison {test : Test} {v : TypedValue}
      (htest : test ∈ [.eq, .ne, .gt, .ge, .lt, .le]) : Paired test (.value v)
  | membership {test : Test} {items : List TypedValue} (htest : test = .isIn ∨ test = .notIn)
      (hitems : items ≠ []) : Paired test (.list items)
  | pattern {test : Test} {p : Text.Pattern} (htest : test = .like ∨ test = .notLike) :
      Paired test (.pattern p)
  | between {low high : TypedValue} {o : Ordering}
      (ho : low.value.compare? high.value = some o) (hle : o ≠ .gt) :
      Paired .between (.range low high)

/-- Every check of the expression has an operand that goes with its test. -/
def Expr.WellPaired (e : Expr) : Prop := ∀ c ∈ e.checks, Paired c.test c.operand

/-! ## The evaluator -/

namespace Check

/-- The evaluator's cases, and none where the operand does not go with the test. -/
def holdsFor? (actual : Value) : Test → Operand → Option Bool
  | .eq, .value v => some (actual.equals v.value)
  | .ne, .value v => some (!actual.equals v.value)
  | .gt, .value v => some (orders actual v (· == .gt))
  | .ge, .value v => some (orders actual v (· != .lt))
  | .lt, .value v => some (orders actual v (· == .lt))
  | .le, .value v => some (orders actual v (· != .gt))
  | .isIn, .list items => some (items.any fun v => actual.equals v.value)
  | .notIn, .list items => some (!items.any fun v => actual.equals v.value)
  | .like, .pattern p => some (onText actual p.isMatch)
  | .notLike, .pattern p => some (onText actual fun s => !p.isMatch s)
  | .between, .range low high =>
    some (orders actual low (· != .lt) && orders actual high (· != .gt))
  | _, _ => none

/-- Whether the row passes the check, and none when a value comes to a test that its operand does
not go with. -/
def eval? (row : Row) (c : Check) : Option Bool :=
  let found := row c.path.dotted
  match c.test with
  | .isNull => some (isAbsent c.path found)
  | .isNotNull => some (!isAbsent c.path found)
  | test => (offered c.path found).anyM fun v =>
    if v.isNull then some false else holdsFor? v test c.operand

theorem holdsFor?_eq_some {test : Test} {operand : Operand} (h : Paired test operand)
    (hnull : test ≠ .isNull) (hnotNull : test ≠ .isNotNull) (actual : Value) :
    holdsFor? actual test operand = some (holdsFor actual test operand) := by
  cases h with
  | presence htest => exact absurd htest (by simp [hnull, hnotNull])
  | comparison htest =>
    simp only [List.mem_cons, List.not_mem_nil, or_false] at htest
    rcases htest with rfl | rfl | rfl | rfl | rfl | rfl <;> rfl
  | membership htest => rcases htest with rfl | rfl <;> rfl
  | pattern htest => rcases htest with rfl | rfl <;> rfl
  | between => rfl

theorem anyM_eq_some_any {α : Type} {f : α → Option Bool} {g : α → Bool} {l : List α}
    (h : ∀ a ∈ l, f a = some (g a)) : l.anyM f = some (l.any g) := by
  induction l with
  | nil => rfl
  | cons a rest ih =>
    obtain ⟨ha, hrest⟩ := List.forall_mem_cons.mp h
    rw [List.anyM, ha, List.any_cons, Option.bind_eq_bind, Option.bind_some, ih hrest]
    cases g a <;> rfl

theorem anyM_holdsFor? {test : Test} {operand : Operand} (h : Paired test operand)
    (hnull : test ≠ .isNull) (hnotNull : test ≠ .isNotNull) (vs : List Value) :
    vs.anyM (fun v => if v.isNull then some false else holdsFor? v test operand) =
      some (vs.any fun v => passes v test operand) := by
  apply anyM_eq_some_any
  intro v _
  rw [passes]
  cases v.isNull with
  | true => rfl
  | false => exact holdsFor?_eq_some h hnull hnotNull v

theorem eval?_eq_some {c : Check} (h : Paired c.test c.operand) (row : Row) :
    c.eval? row = some (c.eval row) := by
  obtain ⟨path, test, operand⟩ := c
  cases test with
  | isNull | isNotNull => rfl
  | _ => exact anyM_holdsFor? h (by simp) (by simp) _

end Check

namespace Expr

mutual

/-- Whether the row matches the expression, and none when a value comes to a test that its operand
does not go with. -/
def eval? (row : Row) : Expr → Option Bool
  | and parts => evalAll? row parts
  | or parts => evalAny? row parts
  | check c => c.eval? row

def evalAll? (row : Row) : List Expr → Option Bool
  | [] => some true
  | e :: rest => do if ← eval? row e then evalAll? row rest else some false

def evalAny? (row : Row) : List Expr → Option Bool
  | [] => some false
  | e :: rest => do if ← eval? row e then some true else evalAny? row rest

end

theorem wellPaired_check {c : Check} :
    WellPaired (check c) ↔ Paired c.test c.operand := List.forall_mem_singleton

theorem wellPaired_and {parts : List Expr} :
    WellPaired (and parts) ↔ ∀ e ∈ parts, WellPaired e := by
  unfold WellPaired
  rw [checks, checksOf_eq_flatMap, List.forall_mem_flatMap]

theorem wellPaired_or {parts : List Expr} :
    WellPaired (or parts) ↔ ∀ e ∈ parts, WellPaired e := by
  unfold WellPaired
  rw [checks, checksOf_eq_flatMap, List.forall_mem_flatMap]

mutual

theorem eval?_eq_some (row : Row) :
    ∀ e : Expr, e.WellPaired → e.eval? row = some (e.eval row)
  | .and parts, h => evalAll?_eq_some row parts (wellPaired_and.mp h)
  | .or parts, h => evalAny?_eq_some row parts (wellPaired_or.mp h)
  | .check _, h => Check.eval?_eq_some (wellPaired_check.mp h) row

theorem evalAll?_eq_some (row : Row) :
    ∀ es : List Expr, (∀ e ∈ es, e.WellPaired) → evalAll? row es = some (evalAll row es)
  | [], _ => rfl
  | e :: rest, h => by
    obtain ⟨he, hrest⟩ := List.forall_mem_cons.mp h
    rw [evalAll?, evalAll, eval?_eq_some row e he, evalAll?_eq_some row rest hrest]
    cases e.eval row <;> rfl

theorem evalAny?_eq_some (row : Row) :
    ∀ es : List Expr, (∀ e ∈ es, e.WellPaired) → evalAny? row es = some (evalAny row es)
  | [], _ => rfl
  | e :: rest, h => by
    obtain ⟨he, hrest⟩ := List.forall_mem_cons.mp h
    rw [evalAny?, evalAny, eval?_eq_some row e he, evalAny?_eq_some row rest hrest]
    cases e.eval row <;> rfl

end

end Expr

/-! ## The renderers -/

namespace Sql

theorem exists_fragment {c : Check} (h : Paired c.test c.operand) (column : String) :
    ∃ f, fragment? column c = some f := by
  obtain ⟨path, test, operand⟩ := c
  cases h with
  | presence htest => rcases htest with rfl | rfl <;> exact ⟨_, rfl⟩
  | comparison htest =>
    simp only [List.mem_cons, List.not_mem_nil, or_false] at htest
    rcases htest with rfl | rfl | rfl | rfl | rfl | rfl <;> exact ⟨_, rfl⟩
  | membership htest => rcases htest with rfl | rfl <;> exact ⟨_, rfl⟩
  | pattern htest => rcases htest with rfl | rfl <;> exact ⟨_, rfl⟩
  | between => exact ⟨_, rfl⟩

theorem exists_checkClause {c : Check} (h : Paired c.test c.operand) (joins : List Join) :
    ∃ r, checkClause joins c = .ok r := by
  obtain ⟨f, hf⟩ := exists_fragment h (column joins c.path).2
  unfold checkClause
  simp only [hf]
  exact ⟨_, rfl⟩

mutual

theorem exists_clause :
    ∀ (e : Expr) (joins : List Join), e.WellPaired → ∃ r, clause joins e = .ok r
  | .and parts, joins, h => by
    obtain ⟨r, hr⟩ := exists_clauses parts joins (Expr.wellPaired_and.mp h)
    rw [clause, hr]
    exact ⟨_, rfl⟩
  | .or parts, joins, h => by
    obtain ⟨r, hr⟩ := exists_clauses parts joins (Expr.wellPaired_or.mp h)
    rw [clause, hr]
    exact ⟨_, rfl⟩
  | .check _, joins, h => exists_checkClause (Expr.wellPaired_check.mp h) joins

theorem exists_clauses :
    ∀ (es : List Expr) (joins : List Join), (∀ e ∈ es, e.WellPaired) →
      ∃ r, clauses joins es = .ok r
  | [], joins, _ => ⟨(joins, []), rfl⟩
  | e :: rest, joins, h => by
    obtain ⟨he, hrest⟩ := List.forall_mem_cons.mp h
    obtain ⟨first, hfirst⟩ := exists_clause e joins he
    obtain ⟨others, hothers⟩ := exists_clauses rest first.1 hrest
    rw [clauses, hfirst, Except.bind, hothers]
    exact ⟨_, rfl⟩

end

theorem exists_render {e : Expr} (h : e.WellPaired) : ∃ q, render e = .ok q := by
  obtain ⟨r, hr⟩ := exists_clause e [] h
  rw [render, hr]
  exact ⟨_, rfl⟩

end Sql

namespace Document

/-- The only failure there can be is a value that cannot be written. -/
def Writes {α : Type} (x : Except Failure α) : Prop := ∀ f, x = .error f → f = .unwritable

variable {α β : Type}

theorem writes_ok (a : α) : Writes (.ok a) := fun _ h => nomatch h

theorem Writes.map {x : Except Failure α} (hx : Writes x) (g : α → β) : Writes (x.map g) := by
  intro f hf
  cases x with
  | ok a => cases hf
  | error e =>
    cases hf
    exact hx f rfl

theorem Writes.bind {x : Except Failure α} {g : α → Except Failure β} (hx : Writes x)
    (hg : ∀ a, Writes (g a)) : Writes (x.bind g) := by
  intro f hf
  cases x with
  | ok a => exact hg a f hf
  | error e =>
    cases hf
    exact hx f rfl

theorem writes_textOf (v : Value) : Writes (textOf v) := by
  unfold textOf
  split
  · exact writes_ok _
  · intro f hf
    cases hf
    rfl

theorem writes_ofFloat (x : Number.Binary) (v : Value) : Writes (ofFloat x v) := by
  unfold ofFloat
  split
  · exact writes_ok _
  · exact (writes_textOf v).map _

theorem writes_ofPlain (v : Value) : Writes (ofPlain v) := by
  unfold ofPlain
  split
  any_goals exact writes_ok _
  any_goals exact writes_ofFloat _ _
  all_goals exact (writes_textOf _).map _

mutual

theorem writes_ofValue (v : Value) : Writes (ofValue v) := by
  cases v with
  | list items => exact (writes_ofValues items).map _
  | _ =>
    unfold ofValue
    exact writes_ofPlain _

theorem writes_ofValues : ∀ vs : List Value, Writes (ofValues vs)
  | [] => writes_ok _
  | v :: rest => (writes_ofValue v).bind fun _ => (writes_ofValues rest).map _

end

theorem writes_condition {c : Check} (h : Paired c.test c.operand) : Writes (condition c) := by
  obtain ⟨path, test, operand⟩ := c
  cases h with
  | presence htest => rcases htest with rfl | rfl <;> exact writes_ok _
  | @comparison _ v htest =>
    simp only [List.mem_cons, List.not_mem_nil, or_false] at htest
    rcases htest with rfl | rfl | rfl | rfl | rfl | rfl
    · exact writes_ofValue v.value
    all_goals exact (writes_ofValue v.value).map _
  | membership htest => rcases htest with rfl | rfl <;> exact ((writes_ofValues _).map _).map _
  | pattern htest => rcases htest with rfl | rfl <;> exact writes_ok _
  | between =>
    exact (writes_ofValue _).bind fun _ => (writes_ofValue _).bind fun _ => writes_ok _

mutual

theorem writes_render : ∀ e : Expr, e.WellPaired → Writes (render e)
  | .and parts, h => (writes_renderAll parts (Expr.wellPaired_and.mp h)).map _
  | .or parts, h => (writes_renderAll parts (Expr.wellPaired_or.mp h)).map _
  | .check _, h => (writes_condition (Expr.wellPaired_check.mp h)).map _

theorem writes_renderAll : ∀ es : List Expr, (∀ e ∈ es, e.WellPaired) → Writes (renderAll es)
  | [], _ => writes_ok _
  | e :: rest, h =>
    have hparts := List.forall_mem_cons.mp h
    (writes_render e hparts.1).bind fun _ => (writes_renderAll rest hparts.2).map _

end

end Document

end RecordFilter
