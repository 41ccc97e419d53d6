import RecordFilter.Schema.Path
import RecordFilter.Text.Pattern

/-!
# Expressions

A compiled filter: resolved paths, tests and typed operands. It belongs to no store and is read by
the evaluator and by the renderers. The empty conjunction always matches and the empty disjunction
never.
-/

namespace RecordFilter

open RecordFilter.Text

inductive Test
  | eq
  | ne
  | gt
  | ge
  | lt
  | le
  | isIn
  | notIn
  | like
  | notLike
  | isNull
  | isNotNull
  | between
  deriving DecidableEq, Repr

namespace Test

def all : List Test :=
  [eq, ne, gt, ge, lt, le, isIn, notIn, like, notLike, isNull, isNotNull, between]

def name : Test → String
  | eq => "Eq"
  | ne => "Ne"
  | gt => "Gt"
  | ge => "Ge"
  | lt => "Lt"
  | le => "Le"
  | isIn => "In"
  | notIn => "NotIn"
  | like => "Like"
  | notLike => "NotLike"
  | isNull => "IsNull"
  | isNotNull => "IsNotNull"
  | between => "Between"

def ofName? (name : String) : Option Test := all.find? (·.name == name)

end Test

inductive Operand
  | none
  | value (v : TypedValue)
  /-- Both ends belong to the range. -/
  | range (low high : TypedValue)
  | list (items : List TypedValue)
  | pattern (p : Pattern)

namespace Operand

/-- The values that the operand carries, in order. -/
def values : Operand → List TypedValue
  | none | pattern _ => []
  | value v => [v]
  | range low high => [low, high]
  | list items => items

/-- The name of the shape of the operand. -/
def label : Operand → String
  | none => "empty"
  | value _ => "single-value"
  | range .. => "range"
  | list _ => "list"
  | pattern _ => "pattern"

end Operand

/-- One test of the values at a path. -/
structure Check where
  path : Path
  test : Test
  operand : Operand

inductive Expr
  | and (parts : List Expr)
  | or (parts : List Expr)
  | check (c : Check)

namespace Expr

/-- Matches every row. -/
def always : Expr := and []

/-- Matches no row. -/
def never : Expr := or []

def isAlways : Expr → Bool
  | and [] => true
  | _ => false

def isNever : Expr → Bool
  | or [] => true
  | _ => false

/-- The conjunction; a single part stands for itself. -/
def all : List Expr → Expr
  | [e] => e
  | parts => and parts

mutual

/-- The checks of the expression from left to right. -/
def checks : Expr → List Check
  | and parts => checksOf parts
  | or parts => checksOf parts
  | check c => [c]

def checksOf : List Expr → List Check
  | [] => []
  | e :: rest => checks e ++ checksOf rest

end

theorem checksOf_eq_flatMap (parts : List Expr) : checksOf parts = parts.flatMap checks := by
  induction parts with
  | nil => rfl
  | cons e rest ih => rw [checksOf, ih, List.flatMap_cons]

/-- Some path of the expression can have several values. -/
def isMany (e : Expr) : Bool := e.checks.any (·.path.isMany)

end Expr

end RecordFilter
