import RecordFilter.Search.Basic
import RecordFilter.Session.Metrics

/-!
# Engines

An engine compiles under its settings and remembers the paths and the search targets that it has
found. What it remembers is kept under the identity of the schema, so that two schemas of one name
do not meet. Its coercer, which several engines can share, has a memory of its own. An engine
reports what it does as events.
-/

namespace RecordFilter

open RecordFilter.Text

/-- A schema with its identity. Schemas that were built separately have different ones. -/
structure KnownSchema where
  identity : Nat
  schema : Schema

structure Engine where
  settings : Settings
  paths : List ((Nat × String) × Path) := []
  targets : List ((Nat × List String) × List Target) := []

/-- An engine at work, its coercer, and the events so far. -/
structure Engine.Run where
  engine : Engine
  coercer : Coercer
  events : List Event := []

/-- Work of an engine. -/
abbrev Work := StateM Engine.Run

namespace Work

def report (e : Event) : Work Unit := modify fun r => { r with events := r.events ++ [e] }

def reportAll (es : List Event) : Work Unit := modify fun r => { r with events := r.events ++ es }

/-- The compiler that the engine is, with what its coercer remembers now. -/
def compiler : Work Compiler := return ⟨(← get).engine.settings, (← get).coercer⟩

/-- The coercer remembers what it looked up for these operands. -/
def noteCoercions (target : FieldType) (raws : List String) : Work Unit :=
  modify fun r => { r with coercer := r.coercer.afterAll target raws }

def rememberPath (key : Nat × String) (p : Path) : Work Unit :=
  modify fun r => { r with engine := { r.engine with paths := (key, p) :: r.engine.paths } }

def rememberTargets (key : Nat × List String) (ts : List Target) : Work Unit :=
  modify fun r => { r with engine := { r.engine with targets := (key, ts) :: r.engine.targets } }

/-- Resolves a selector. Only a path that was found is remembered. -/
def resolve (root : KnownSchema) (selector : String) : Work (Except PathError Path) := do
  let key := (root.identity, selector)
  match (← get).engine.paths.lookup key with
  | some p =>
    report (.pathCache true)
    return .ok p
  | none =>
    report (.pathCache false)
    match (← compiler).resolve root.schema selector with
    | .ok p =>
      rememberPath key p
      return .ok p
    | .error e => return .error e

/-! ## Filters -/

def compileComparison (root : KnownSchema) (cmp : Comparison) :
    Work (Except CompileError Expr) := do
  match Compiler.operatorOf cmp with
  | .error e => return .error e
  | .ok op =>
    match ← resolve root cmp.selector with
    | .error e => return .error (Compiler.pathFault cmp e)
    | .ok path =>
      let lowered := (← compiler).lower op path cmp.arguments
      noteCoercions path.terminal (Compiler.coercedArguments op path cmp.arguments)
      match lowered with
      | .error e => return .error (Compiler.coercionFault cmp e)
      | .ok expr =>
        report (.comparison root.schema.name op)
        return .ok expr

mutual

/-- Compiles a filter. Nothing is tried after the first comparison that fails. -/
def compile (root : KnownSchema) : Filter → Work (Except CompileError Expr)
  | .and parts => do return (← compileAll root parts).map .and
  | .or parts => do return (← compileAll root parts).map .or
  | .compare cmp => compileComparison root cmp

def compileAll (root : KnownSchema) : List Filter → Work (Except CompileError (List Expr))
  | [] => return .ok []
  | f :: rest => do
    match ← compile root f with
    | .error e => return .error e
    | .ok e => return (← compileAll root rest).map (e :: ·)

end

/-! ## Keywords -/

/-- The searchable fields of a schema under a set of names. -/
def targets (root : KnownSchema) (propagate : List String) : Work (List Target) := do
  let key := (root.identity, propagate)
  match (← get).engine.targets.lookup key with
  | some ts =>
    report (.targetCache true)
    return ts
  | none =>
    report (.targetCache false)
    let ts := (← compiler).targets root.schema propagate
    rememberTargets key ts
    return ts

/-- What is reported when the keyword is tried on the target. -/
def targetEvents (coercer : Coercer) (schema keyword : String) (t : Target) : List Event :=
  match t.outcome coercer keyword with
  | .term .. => [.term schema]
  | .declined => []
  | .failed _ => [.skipped schema t.path.dotted]

/-- Tries the keyword on one target. -/
def searchTarget (schema keyword : String) (t : Target) : Work (Option Expr) := do
  let coercer := (← get).coercer
  if t.heuristic.converts keyword then noteCoercions t.path.terminal [keyword]
  reportAll (targetEvents coercer schema keyword t)
  return t.term? coercer keyword

/-- Tries the keyword on the targets from left to right. -/
def searchAll (schema keyword : String) : List Target → Work (List Expr)
  | [] => return []
  | t :: rest => do
    let term ← searchTarget schema keyword t
    return term.toList ++ (← searchAll schema keyword rest)

/-- The search for a keyword. A blank one does not look for targets. -/
def traverse (root : KnownSchema) (propagate : List String) (keyword : String) : Work Expr := do
  if (trim keyword).isEmpty then return .never
  else
    let ts ← targets root propagate
    return .or (← searchAll root.schema.name (trim keyword) ts)

/-! ## Searches -/

def resolveOrders (root : KnownSchema) :
    List SortOrder → Work (Except SearchError (List ResolvedOrder))
  | [] => return .ok []
  | o :: rest => do
    match ← resolve root o.property with
    | .error e => return .error (.sort o.property e)
    | .ok path => return (← resolveOrders root rest).map (⟨path, o.direction⟩ :: ·)

def filterPart (root : KnownSchema) : Option Filter → Work (Except SearchError (List Expr))
  | none => return .ok []
  | some f => do return ((← compile root f).mapError .compile).map ([·])

def keywordPart (root : KnownSchema) (o : SearchOptions) : Work (List Expr) :=
  match o.givenKeyword with
  | none => return []
  | some k => do return [← traverse root o.propagate k]

/-- A search without the events around it. -/
def searchParts (root : KnownSchema) (o : SearchOptions) :
    Work (Except SearchError CompiledSearch) := do
  match o.check (← compiler).settings root.schema with
  | .error e => return .error e
  | .ok () =>
    let fromKeyword ← keywordPart root o
    match ← filterPart root o.filter with
    | .error e => return .error e
    | .ok fromFilter =>
      return (← resolveOrders root o.sort).map fun sort =>
        ⟨.all (fromKeyword ++ fromFilter), sort, o.page⟩

/-- Compiles a search. The start and the outcome are reported, also when it fails. -/
def search (root : KnownSchema) (o : SearchOptions) : Work (Except SearchError CompiledSearch) := do
  report (.compileStart root.schema.name)
  let result ← searchParts root o
  report (.compileFinish root.schema.name result.isOk)
  return result

end Work

end RecordFilter
