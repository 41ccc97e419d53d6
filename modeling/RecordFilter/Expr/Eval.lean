import RecordFilter.Expr.Basic
import RecordFilter.Value.Order

/-!
# Evaluation

Whether a row matches an expression. A path with several values matches when one of them does. A
missing or null value matches nothing but the test for null.
-/

namespace RecordFilter

/-- A record as the values at its dotted paths; a path without a value is missing. -/
abbrev Row := String → Option Value

namespace Check

/-- Compares with the bound and accepts some outcomes; values that do not compare are refused. -/
def orders (actual : Value) (bound : TypedValue) (accept : Ordering → Bool) : Bool :=
  match actual.compare? bound.value with
  | some o => accept o
  | none => false

/-- The text of the value passes; other values do not. -/
def onText (actual : Value) (passes : String → Bool) : Bool :=
  match actual.asText? with
  | some s => passes s
  | none => false

/-- One value that is not null against the operand. An operand that does not go with the test fails
every value. -/
def holdsFor (actual : Value) : Test → Operand → Bool
  | .eq, .value v => actual.equals v.value
  | .ne, .value v => !actual.equals v.value
  | .gt, .value v => orders actual v (· == .gt)
  | .ge, .value v => orders actual v (· != .lt)
  | .lt, .value v => orders actual v (· == .lt)
  | .le, .value v => orders actual v (· != .gt)
  | .isIn, .list items => items.any fun v => actual.equals v.value
  | .notIn, .list items => !items.any fun v => actual.equals v.value
  | .like, .pattern p => onText actual p.isMatch
  | .notLike, .pattern p => onText actual fun s => !p.isMatch s
  | .between, .range low high =>
    orders actual low (· != .lt) && orders actual high (· != .gt)
  | _, _ => false

/-- One value against the operand. -/
def passes (actual : Value) (test : Test) (operand : Operand) : Bool :=
  !actual.isNull && holdsFor actual test operand

/-- The values that a path offers for testing: the elements where it can have several, and none
where it is missing. -/
def offered (path : Path) : Option Value → List Value
  | some (.list items) => if path.isMany then items else [.list items]
  | some v => [v]
  | none => []

/-- The path has no value: it is missing, null, or has no element. -/
def isAbsent (path : Path) : Option Value → Bool
  | none | some .null => true
  | some (.list items) => path.isMany && items.isEmpty
  | some _ => false

/-- Whether the row passes the check. -/
def eval (row : Row) (c : Check) : Bool :=
  let found := row c.path.dotted
  match c.test with
  | .isNull => isAbsent c.path found
  | .isNotNull => !isAbsent c.path found
  | test => (offered c.path found).any fun v => passes v test c.operand

end Check

namespace Expr

mutual

/-- Whether the row matches the expression. -/
def eval (row : Row) : Expr → Bool
  | and parts => evalAll row parts
  | or parts => evalAny row parts
  | check c => c.eval row

def evalAll (row : Row) : List Expr → Bool
  | [] => true
  | e :: rest => eval row e && evalAll row rest

def evalAny (row : Row) : List Expr → Bool
  | [] => false
  | e :: rest => eval row e || evalAny row rest

end

theorem evalAll_eq_all (row : Row) (parts : List Expr) :
    evalAll row parts = parts.all (eval row) := by
  induction parts with
  | nil => rfl
  | cons e rest ih => rw [evalAll, ih, List.all_cons]

theorem evalAny_eq_any (row : Row) (parts : List Expr) :
    evalAny row parts = parts.any (eval row) := by
  induction parts with
  | nil => rfl
  | cons e rest ih => rw [evalAny, ih, List.any_cons]

end Expr

end RecordFilter
