/-!
# Filters

A filter as the caller writes it: comparisons joined by `and` and `or`. Selectors, operators and
arguments are still plain text.
-/

namespace RecordFilter

inductive Operator
  | eq
  | ne
  | gt
  | ge
  | lt
  | le
  | isIn
  | notIn
  deriving DecidableEq, Repr

namespace Operator

def all : List Operator := [eq, ne, gt, ge, lt, le, isIn, notIn]

def symbol : Operator → String
  | eq => "=="
  | ne => "!="
  | gt => ">"
  | ge => ">="
  | lt => "<"
  | le => "<="
  | isIn => "=in="
  | notIn => "=out="

/-- Reads a symbol, or the word that can stand for it. -/
def ofSymbol? (symbol : String) : Option Operator :=
  if symbol = "==" then some eq
  else if symbol = "!=" then some ne
  else if symbol = ">" ∨ symbol = "=gt=" then some gt
  else if symbol = ">=" ∨ symbol = "=ge=" then some ge
  else if symbol = "<" ∨ symbol = "=lt=" then some lt
  else if symbol = "<=" ∨ symbol = "=le=" then some le
  else if symbol = "=in=" then some isIn
  else if symbol = "=out=" then some notIn
  else none

theorem ofSymbol?_symbol (op : Operator) : ofSymbol? op.symbol = some op := by
  cases op <;> decide

/-- What is said about a symbol that is no operator. -/
def unsupported (symbol : String) : String :=
  "unsupported operator '" ++ symbol ++ "', expected one of " ++
    " ".intercalate (all.map Operator.symbol)

end Operator

/-- `selector operator argument, argument, …` -/
structure Comparison where
  selector : String
  operator : String
  arguments : List String
  deriving DecidableEq, Repr

inductive Filter
  | and (parts : List Filter)
  | or (parts : List Filter)
  | compare (c : Comparison)
  deriving Repr, Inhabited

namespace Filter

/-- A comparison with an operator of the language. -/
def test (selector : String) (op : Operator) (arguments : List String) : Filter :=
  compare ⟨selector, op.symbol, arguments⟩

mutual

/-- The comparisons of the filter from left to right. -/
def leaves : Filter → List Comparison
  | and parts => leavesOf parts
  | or parts => leavesOf parts
  | compare c => [c]

def leavesOf : List Filter → List Comparison
  | [] => []
  | f :: rest => leaves f ++ leavesOf rest

end

end Filter

end RecordFilter
