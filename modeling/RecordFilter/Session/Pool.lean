import RecordFilter.Session.Engine

/-!
# Pools

A pool holds any number of coercers and engines that calls share, in any wiring: each call names the
coercer and the engine that it works with. Schemas come into a pool by being built, each with an
identity of its own, or as copies, which keep theirs.
-/

namespace RecordFilter

/-- What an engine is asked about a schema. -/
inductive Task
  | resolve (selector : String)
  | targets (propagate : List String)
  | traverse (propagate : List String) (keyword : String)
  | compile (filter : Filter)
  | search (options : SearchOptions)

inductive Reply
  | path (r : Except PathError Path)
  | targets (ts : List Target)
  | expr (e : Expr)
  | compiled (r : Except CompileError Expr)
  | found (r : Except SearchError CompiledSearch)
  | coerced (r : Except CoercionError TypedValue)
  /-- The index of a schema that was added. -/
  | added (r : Except SchemaError Nat)
  /-- The call names something that the pool does not hold. -/
  | unknown

def Task.work (root : KnownSchema) : Task → Work Reply
  | resolve selector => .path <$> Work.resolve root selector
  | targets propagate => .targets <$> Work.targets root propagate
  | traverse propagate keyword => .expr <$> Work.traverse root propagate keyword
  | compile f => .compiled <$> Work.compile root f
  | search o => .found <$> Work.search root o

inductive Call
  | build (name : String) (fields : List Field) (aliases : List (String × String))
  | clone (schema : Nat)
  | coerce (coercer : Nat) (target : FieldType) (raw : String)
  | run (engine coercer schema : Nat) (settings : Settings) (task : Task)

/-- The engine under other settings. The limit on paths stays, since what is remembered hangs on
it. -/
def Engine.under (s : Settings) (e : Engine) : Engine :=
  { e with settings := { s with maxDepth := e.settings.maxDepth } }

/-- The engine without its memory. -/
def Engine.forget (e : Engine) : Engine := { settings := e.settings }

structure Pool where
  /-- The schemas in the order in which they were added. -/
  schemas : List KnownSchema := []
  /-- The identity of the next schema that is built. -/
  nextIdentity : Nat := 0
  coercers : List Coercer
  engines : List Engine

namespace Pool

/-- A pool without schemas, and nothing in it remembers anything. -/
def start (own : List (List OwnStrategy)) (settings : List Settings) : Pool where
  coercers := own.map fun strategies => { own := strategies }
  engines := settings.map fun s => { settings := s }

def addSchema (p : Pool) (k : KnownSchema) (next : Nat) : Reply × Pool :=
  (.added (.ok p.schemas.length), { p with schemas := p.schemas ++ [k], nextIdentity := next })

def build (p : Pool) (name : String) (fields : List Field) (aliases : List (String × String)) :
    Reply × Pool :=
  match Schema.build name fields aliases with
  | .error e => (.added (.error e), p)
  | .ok s => p.addSchema ⟨p.nextIdentity, s⟩ (p.nextIdentity + 1)

def clone (p : Pool) (i : Nat) : Reply × Pool :=
  match p.schemas[i]? with
  | none => (.unknown, p)
  | some k => p.addSchema k p.nextIdentity

def coerce (p : Pool) (i : Nat) (target : FieldType) (raw : String) : Reply × Pool :=
  match p.coercers[i]? with
  | none => (.unknown, p)
  | some c =>
    (.coerced (c.coerce target raw), { p with coercers := p.coercers.set i (c.after target raw) })

def run (p : Pool) (i j k : Nat) (settings : Settings) (task : Task) : Reply × Pool :=
  match p.engines[i]?, p.coercers[j]?, p.schemas[k]? with
  | some e, some c, some root =>
    let (reply, r) := (task.work root).run { engine := e.under settings, coercer := c }
    (reply, { p with
      coercers := p.coercers.set j r.coercer
      engines := p.engines.set i { r.engine with settings := e.settings } })
  | _, _, _ => (.unknown, p)

def perform (p : Pool) : Call → Reply × Pool
  | .build name fields aliases => p.build name fields aliases
  | .clone i => p.clone i
  | .coerce i target raw => p.coerce i target raw
  | .run i j k settings task => p.run i j k settings task

/-- The pool after some calls. -/
def after (p : Pool) (calls : List Call) : Pool := calls.foldl (fun p call => (p.perform call).2) p

/-- What the calls give, one after the other. -/
def replies (p : Pool) : List Call → List Reply
  | [] => []
  | call :: rest => (p.perform call).1 :: replies (p.perform call).2 rest

/-! ## Metrics -/

/-- The events that a call reports. -/
def events (p : Pool) : Call → List Event
  | .run i j k settings task =>
    match p.engines[i]?, p.coercers[j]?, p.schemas[k]? with
    | some e, some c, some root =>
      ((task.work root).run { engine := e.under settings, coercer := c }).2.events
    | _, _, _ => []
  | .build .. | .clone _ | .coerce .. => []

/-- What the calls report, one after the other. -/
def allEvents (p : Pool) : List Call → List Event
  | [] => []
  | call :: rest => p.events call ++ allEvents (p.perform call).2 rest

/-- The metrics after the calls, if they were reset before. -/
def metrics (p : Pool) (calls : List Call) : Metrics := Metrics.count {} (p.allEvents calls)

/-! ## Nothing remembered -/

/-- The pool with new coercers and engines, which remember nothing, in the place of its own. -/
def forget (p : Pool) : Pool :=
  { p with
    coercers := p.coercers.map Coercer.forget
    engines := p.engines.map Engine.forget }

/-- What the calls give when each finds new coercers and engines. -/
def freshReplies (p : Pool) : List Call → List Reply
  | [] => []
  | call :: rest => (p.forget.perform call).1 :: freshReplies (p.forget.perform call).2 rest

end Pool

end RecordFilter
