import RecordFilter.Compile.Lowering

/-!
# Compiling filters

A filter compiles when each of its comparisons does. The shape of the filter is kept, and the first
comparison that fails, from left to right, is the one reported, with its selector.
-/

namespace RecordFilter

/-- What is wrong with one comparison: its operator, its path, or its arguments, in this order. -/
inductive ComparisonFault
  | operator (symbol : String)
  | path (e : PathError)
  | coercion (e : CoercionError)

def ComparisonFault.message : ComparisonFault → String
  | operator symbol => Operator.unsupported symbol
  | path e => e.message
  | coercion e => e.message

structure CompileError where
  selector : String
  fault : ComparisonFault

def CompileError.message (e : CompileError) : String :=
  "selector '" ++ e.selector ++ "': " ++ e.fault.message

namespace Compiler

/-- The path of a selector within the limit of the settings. -/
def resolve (c : Compiler) (root : Schema) (selector : String) : Except PathError Path :=
  root.resolve c.settings.maxDepth selector

/-- The operator of a comparison, or the fault that it has none. -/
def operatorOf (cmp : Comparison) : Except CompileError Operator :=
  match Operator.ofSymbol? cmp.operator with
  | some op => .ok op
  | none => .error ⟨cmp.selector, .operator cmp.operator⟩

def pathFault (cmp : Comparison) (e : PathError) : CompileError := ⟨cmp.selector, .path e⟩

def coercionFault (cmp : Comparison) (e : CoercionError) : CompileError :=
  ⟨cmp.selector, .coercion e⟩

/-- Compiles one comparison. -/
def compileComparison (c : Compiler) (root : Schema) (cmp : Comparison) :
    Except CompileError Expr := do
  let op ← operatorOf cmp
  let path ← (c.resolve root cmp.selector).mapError (pathFault cmp)
  (c.lower op path cmp.arguments).mapError (coercionFault cmp)

mutual

/-- Compiles a filter. -/
def compile (c : Compiler) (root : Schema) : Filter → Except CompileError Expr
  | .and parts => (compileAll c root parts).map .and
  | .or parts => (compileAll c root parts).map .or
  | .compare cmp => c.compileComparison root cmp

def compileAll (c : Compiler) (root : Schema) : List Filter → Except CompileError (List Expr)
  | [] => .ok []
  | f :: rest => (compile c root f).bind fun e => (compileAll c root rest).map (e :: ·)

end

end Compiler

end RecordFilter
