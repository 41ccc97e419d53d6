import RecordFilter.Coercion.Coercer
import RecordFilter.Compile.DayRange
import RecordFilter.Expr.Basic
import RecordFilter.Schema.Candidate

/-!
# Lowering comparisons

One comparison with a resolved path becomes one check. Its arguments are coerced to the type of the
path; the value then decides the test: text is matched as a pattern, a blank operand asks for null,
and a keyword for an enumeration may name several members.
-/

namespace RecordFilter

open RecordFilter.Text

/-- What filters are compiled with. -/
structure Compiler where
  settings : Settings
  coercer : Coercer

namespace Compiler

/-- The one argument of an operator that takes one. -/
def singleArgument (op : Operator) : List String → Except CoercionError String
  | [raw] => .ok raw
  | arguments => .error (.arity op.symbol "exactly 1" arguments.length)

/-- The check for the candidates of an enumeration operand that names no member. -/
def candidateCheck (negated : Bool) (path : Path) (model : EnumModel) (raw : String) :
    Option Check :=
  match model.candidateValues (trim raw) with
  | [] => none
  | candidates =>
    let items := candidates.map fun e => ⟨.enumMember e, path.terminal⟩
    some ⟨path, if negated then .notIn else .isIn, .list items⟩

/-- The check for equality with a value. -/
def valueCheck (settings : Settings) (negated : Bool) (path : Path) (v : TypedValue) : Check :=
  match v.value with
  | .null => ⟨path, if negated then .isNotNull else .isNull, .none⟩
  | .text s =>
    ⟨path, if negated then .notLike else .like,
      .pattern (Pattern.ofWildcard settings.wildcard s)⟩
  | _ => ⟨path, if negated then .ne else .eq, .value v⟩

def lowerEquality (c : Compiler) (negated : Bool) (path : Path) (raw : String) :
    Except CoercionError Check :=
  match c.coercer.coerce path.terminal raw, path.terminal with
  | .ok v, _ => .ok (valueCheck c.settings negated path v)
  | .error e, .enumeration model =>
    match candidateCheck negated path model raw with
    | some check => .ok check
    | none => .error e
  | .error e, _ => .error e

/-- The test of an ordering operator. -/
def orderingTest : Operator → Test
  | .gt => .gt
  | .ge => .ge
  | .lt => .lt
  | _ => .le

def lowerOrdering (c : Compiler) (op : Operator) (path : Path) (raw : String) :
    Except CoercionError Expr := do
  let target := path.terminal
  if !target.isOrdered then .error (.notApplicable op.symbol target)
  else
    let v ← c.coercer.coerce target raw
    if v.value.isNull then .error (.notApplicable op.symbol target)
    else if target.isWidened then
      match c.settings.valueRange op v.value with
      | some (low, high) =>
        return .check ⟨path, .between, .range ⟨low, target⟩ ⟨high, target⟩⟩
      | none => return .never
    else return .check ⟨path, orderingTest op, .value v⟩

def lowerMembership (c : Compiler) (op : Operator) (path : Path) (arguments : List String) :
    Except CoercionError Check :=
  if arguments.isEmpty then .error (.arity op.symbol "at least 1" 0)
  else (c.coercer.coerceAll path.terminal arguments).map fun values =>
    ⟨path, if op = .isIn then .isIn else .notIn, .list values⟩

/-- The expression of one comparison. -/
def lower (c : Compiler) (op : Operator) (path : Path) (arguments : List String) :
    Except CoercionError Expr :=
  match op with
  | .eq | .ne => do
    let raw ← singleArgument op arguments
    return .check (← c.lowerEquality (op = .ne) path raw)
  | .gt | .ge | .lt | .le => do
    let raw ← singleArgument op arguments
    c.lowerOrdering op path raw
  | .isIn | .notIn => (c.lowerMembership op path arguments).map .check

/-- The arguments that are coerced: none where the comparison is refused before that. -/
def coercedArguments (op : Operator) (path : Path) (arguments : List String) : List String :=
  match op with
  | .eq | .ne => if arguments.length = 1 then arguments else []
  | .gt | .ge | .lt | .le =>
    if path.terminal.isOrdered ∧ arguments.length = 1 then arguments else []
  | .isIn | .notIn => arguments

end Compiler

end RecordFilter
