import RecordFilter.Filter.Basic
import RecordFilter.Number.Word

/-!
# Metrics

What happens while filters are compiled is reported as events. The metrics count them, for the
whole program and for each schema by its name. All counters are words: those of the whole program
wrap around, and those of a schema stay at the greatest word.
-/

namespace RecordFilter

open RecordFilter.Number

inductive Event
  | compileStart (schema : String)
  | compileFinish (schema : String) (ok : Bool)
  | comparison (schema : String) (op : Operator)
  | term (schema : String)
  | skipped (schema path : String)
  | pathCache (hit : Bool)
  | targetCache (hit : Bool)
  deriving DecidableEq, Repr

structure Counters where
  compileCalls : UInt64 := 0
  compileFailures : UInt64 := 0
  comparisons : UInt64 := 0
  terms : UInt64 := 0
  skipped : UInt64 := 0
  deriving DecidableEq, Repr

structure CacheCounters where
  hits : UInt64 := 0
  misses : UInt64 := 0
  deriving DecidableEq, Repr

structure Metrics where
  totals : Counters := {}
  paths : CacheCounters := {}
  targets : CacheCounters := {}
  /-- The counters of each schema that has any, sorted by name. -/
  schemas : List (String × Counters) := []
  deriving DecidableEq, Repr

/-- The schema whose counters the event changes. -/
def Event.counted? : Event → Option String
  | compileStart s | compileFinish s false | comparison s _ | term s | skipped s _ => some s
  | compileFinish _ true | pathCache _ | targetCache _ => none

/-- Counts the event by `succ`. -/
def Counters.add (succ : UInt64 → UInt64) (c : Counters) : Event → Counters
  | .compileStart _ => { c with compileCalls := succ c.compileCalls }
  | .compileFinish _ false => { c with compileFailures := succ c.compileFailures }
  | .comparison .. => { c with comparisons := succ c.comparisons }
  | .term _ => { c with terms := succ c.terms }
  | .skipped .. => { c with skipped := succ c.skipped }
  | .compileFinish _ true | .pathCache _ | .targetCache _ => c

def CacheCounters.add (c : CacheCounters) (hit : Bool) : CacheCounters :=
  if hit then { c with hits := wrappingSucc c.hits } else { c with misses := wrappingSucc c.misses }

/-- Changes the entry of this name in a list that is sorted by name. One that is not there is put in
its place, changed from `empty`. -/
def changeEntry {α : Type} (name : String) (empty : α) (change : α → α) :
    List (String × α) → List (String × α)
  | [] => [(name, change empty)]
  | (n, a) :: rest =>
    if name < n then (name, change empty) :: (n, a) :: rest
    else if name = n then (n, change a) :: rest
    else (n, a) :: changeEntry name empty change rest

def Metrics.add (m : Metrics) (e : Event) : Metrics :=
  let m := { m with totals := m.totals.add wrappingSucc e }
  match e, e.counted? with
  | .pathCache hit, _ => { m with paths := m.paths.add hit }
  | .targetCache hit, _ => { m with targets := m.targets.add hit }
  | e, some schema =>
    { m with schemas := changeEntry schema {} (·.add saturatingSucc e) m.schemas }
  | _, none => m

/-- The metrics after some events. -/
def Metrics.count (m : Metrics) (es : List Event) : Metrics := es.foldl add m

end RecordFilter
