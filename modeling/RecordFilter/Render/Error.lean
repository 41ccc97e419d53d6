import RecordFilter.Expr.Basic

/-!
# Checks that cannot be rendered

A check whose operand does not have the shape that its test needs. Compiling never makes one; an
expression that is put together by hand can hold it.
-/

namespace RecordFilter

structure RenderError where
  path : String
  test : Test
  /-- The name of the operand's shape. -/
  operand : String
  deriving DecidableEq, Repr

def RenderError.message (e : RenderError) : String :=
  "operator " ++ e.test.name ++ " on '" ++ e.path ++ "' cannot take a " ++ e.operand ++ " operand"

/-- The error of a check. -/
def Check.mismatch (c : Check) : RenderError := ⟨c.path.dotted, c.test, c.operand.label⟩

end RecordFilter
