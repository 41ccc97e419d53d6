import RecordFilter.Session.Engine

/-!
# Sessions

A session holds schemas, a coercer, two engines that share it, and the metrics. One engine resolves,
compiles filters and searches keywords; the other compiles whole searches. Events go to the metrics,
or to the innermost scope that collects them.
-/

namespace RecordFilter

structure Session where
  metrics : Metrics := {}
  /-- The events of the innermost scope, if there is one. -/
  scope : Option (List Event) := none
  /-- The schemas in the order in which they became known. -/
  schemas : List KnownSchema := []
  /-- The identity of the next schema that is built. -/
  nextIdentity : Nat := 0
  coercer : Coercer
  direct : Engine
  searching : Engine
  /-- The last expression that was compiled. -/
  last : Expr := .always

namespace Session

/-- A session without schemas. -/
def start (c : Compiler) : Session where
  coercer := c.coercer
  direct := { settings := c.settings }
  searching := { settings := c.settings }

/-- Where an event goes. -/
def record (s : Session) (e : Event) : Session :=
  match s.scope with
  | some events => { s with scope := some (events ++ [e]) }
  | none => { s with metrics := s.metrics.add e }

def recordAll (s : Session) (es : List Event) : Session := es.foldl record s

/-- Work of the first engine. -/
def runDirect {α : Type} (work : Work α) (s : Session) : α × Session :=
  let (a, r) := work.run { engine := s.direct, coercer := s.coercer }
  (a, { s with direct := r.engine, coercer := r.coercer }.recordAll r.events)

/-- Work of the engine for searches. -/
def runSearching {α : Type} (work : Work α) (s : Session) : α × Session :=
  let (a, r) := work.run { engine := s.searching, coercer := s.coercer }
  (a, { s with searching := r.engine, coercer := r.coercer }.recordAll r.events)

/-- Coerces one operand. -/
def coerce (target : FieldType) (raw : String) (s : Session) :
    Except CoercionError TypedValue × Session :=
  (s.coercer.coerce target raw, { s with coercer := s.coercer.after target raw })

/-- The strategy that is responsible for a type. -/
def route (target : FieldType) (s : Session) : Option Strategy × Session :=
  (s.coercer.route target, { s with coercer := s.coercer.note target })

/-- Adds a schema that was just built, and gives its index. -/
def addSchema (s : Session) (schema : Schema) : Nat × Session :=
  (s.schemas.length,
    { s with
      schemas := s.schemas ++ [⟨s.nextIdentity, schema⟩]
      nextIdentity := s.nextIdentity + 1 })

/-- Adds a known schema once more, with its identity, and gives the new index. -/
def cloneSchema (s : Session) (k : KnownSchema) : Nat × Session :=
  (s.schemas.length, { s with schemas := s.schemas ++ [k] })

/-- New engines and a new coercer, which remember nothing. -/
def withCompiler (s : Session) (c : Compiler) : Session :=
  { s with
    coercer := c.coercer
    direct := { settings := c.settings }
    searching := { settings := c.settings }
    last := .always }

def withLast (s : Session) (e : Expr) : Session := { s with last := e }

def resetMetrics (s : Session) : Session := { s with metrics := {} }

/-- The events of a compilation that does nothing. -/
def span (s : Session) (schema : String) (ok : Bool) : Session :=
  (s.record (.compileStart schema)).record (.compileFinish schema ok)

/-- Opens a scope that collects events. -/
def openScope (s : Session) : Session := { s with scope := some [] }

/-- The events of the scope, which is closed; the scope around it goes on as it was. -/
def closeScope (s : Session) (outer : Option (List Event)) : List Event × Session :=
  (s.scope.getD [], { s with scope := outer })

end Session

end RecordFilter
