import RecordFilter.Proofs.Session.Reports
import RecordFilter.Proofs.Session.Words

/-!
# What a task has to count

What a task adds to the metrics follows from what it asks and what the compiler without memory
answers: a search and its failure, the selectors that are resolved, the comparisons that are lowered
before the first that fails, the terms that are made and the fields that are skipped. Only which
resolutions are hits hangs on what is remembered.
-/

namespace RecordFilter

open RecordFilter.Number RecordFilter.Text

/-! ## Jobs -/

def Reply.isSearch : Reply → Bool
  | found _ => true
  | _ => false

def Reply.isFailedSearch : Reply → Bool
  | found (.error _) => true
  | _ => false

/-- The alternatives of a search for a keyword. -/
def Expr.alternatives : Expr → List Expr
  | or es => es
  | _ => []

def Heuristic.Outcome.isFailed : Outcome → Bool
  | failed _ => true
  | _ => false

/-- A task with the compiler and the schema that it is for. -/
structure Job where
  compiler : Compiler
  root : Schema
  task : Task

namespace Job

variable (j : Job)

def answer : Reply := j.task.answer j.compiler j.root

/-- The options of a search that are not refused at once. -/
def options? : Option SearchOptions :=
  match j.task with
  | .search o => if (o.check j.compiler.settings j.root).isOk then some o else none
  | _ => none

/-- The filter that is compiled. -/
def filter? : Option Filter :=
  match j.task with
  | .compile f => some f
  | _ => j.options?.bind (·.filter)

/-- The associations and the keyword of a search for a keyword. -/
def keyword? : Option (List String × String) :=
  match j.task with
  | .traverse propagate keyword => some (propagate, keyword)
  | _ => j.options?.bind fun o => o.givenKeyword.map (o.propagate, ·)

/-- The properties that a search sorts by, if its filter compiles. -/
def properties : List String :=
  match j.options? with
  | some o => if (j.compiler.filterPart j.root o.filter).isOk then o.sort.map (·.property) else []
  | none => []

/-- The comparisons that are tried: those up to the first that fails. -/
def comparisons : List Comparison :=
  j.filter?.toList.flatMap fun f => tried (j.compiler.compiles j.root) f.leaves

/-- The comparisons that are lowered: those before the first that fails. -/
def lowered : List Comparison :=
  j.filter?.toList.flatMap fun f => f.leaves.takeWhile (j.compiler.compiles j.root)

/-- The selectors that are resolved: those of comparisons with an operator, and of an order up to
the first that fails. -/
def selectors : List String :=
  match j.task with
  | .resolve selector => [selector]
  | _ => (j.comparisons.filter fun cmp => (Operator.ofSymbol? cmp.operator).isSome).map (·.selector)
      ++ tried (j.compiler.resolves j.root) j.properties

/-- What the resolutions give. -/
def resolutions : List (Except PathError Path) := j.selectors.map (j.compiler.resolve j.root)

/-- The terms that are made for the keyword. -/
def terms : List Expr :=
  j.keyword?.toList.flatMap fun (propagate, keyword) =>
    (j.compiler.traverse j.root propagate keyword).alternatives

/-- The fields that are skipped, since the keyword looks like a value of them and is none. -/
def skipped : List Target :=
  j.keyword?.toList.flatMap fun (propagate, keyword) =>
    if (trim keyword).isEmpty then []
    else (j.compiler.targets j.root propagate).filter fun t =>
      (t.outcome j.compiler.coercer (trim keyword)).isFailed

end Job

/-! ## Counting expected events -/

theorem Tally.ofEvents_congr {es es' : List Event} (h : es.Forall₂ Event.Within es') :
    ofEvents es = ofEvents es' := by
  have hevent {e e' : Event} (h : e.Within e') : ofEvent e = ofEvent e' := by
    cases h <;> rfl
  induction h with
  | nil => rfl
  | cons hhead _ ih => rw [ofEvents_cons, ofEvents_cons, hevent hhead, ih]

namespace Compiler

variable {c : Compiler} {root : Schema}

theorem ofEvents_comparisonEvents (cmp : Comparison) :
    Tally.ofEvents (c.comparisonEvents root cmp) =
      if c.compiles root cmp then { comparisons := 1 } else 0 := by
  unfold comparisonEvents
  cases hop : operatorOf cmp with
  | error e =>
    have hcompiles : c.compiles root cmp = false := by
      rw [compiles, compileComparison, hop]
      rfl
    rw [hcompiles]
    rfl
  | ok op => cases c.compiles root cmp <;> rfl

theorem ofEvents_filterEvents (f : Filter) :
    Tally.ofEvents (c.filterEvents root f) =
      { comparisons := (f.leaves.takeWhile (c.compiles root)).length } := by
  unfold filterEvents
  induction f.leaves with
  | nil => rfl
  | cons cmp rest ih =>
    rw [tried_cons, List.flatMap_cons, Tally.ofEvents_append, ofEvents_comparisonEvents,
      List.takeWhile_cons]
    cases c.compiles root cmp with
    | false => rfl
    | true =>
      simp only [if_true, ih, Tally.add_def, List.length_cons, Nat.add_comm 1, Nat.add_zero]

theorem ofEvents_keywordEvents (propagate : List String) (keyword : String) :
    Tally.ofEvents (c.keywordEvents root propagate keyword) =
      { terms := (c.traverse root propagate keyword).alternatives.length
        skipped := (if (trim keyword).isEmpty then []
          else (c.targets root propagate).filter fun t =>
            (t.outcome c.coercer (trim keyword)).isFailed).length } := by
  unfold keywordEvents traverse searchTargets
  split
  · rfl
  · rw [Tally.ofEvents_cons, Tally.ofEvent, zero_add]
    induction c.targets root propagate with
    | nil => rfl
    | cons t rest ih =>
      rw [List.flatMap_cons, Tally.ofEvents_append, ih, Work.targetEvents]
      simp only [Expr.alternatives, List.filterMap_cons, Target.term?, List.filter_cons]
      cases t.outcome c.coercer (trim keyword) with
      | term test operand =>
        simp [Tally.ofEvents, Tally.ofEvent, Tally.add_def, Tally.zero_def,
          Heuristic.Outcome.isFailed, Nat.add_comm 1]
      | declined =>
        simp [Tally.ofEvents, Tally.add_def, Tally.zero_def, Heuristic.Outcome.isFailed]
      | failed e =>
        simp [Tally.ofEvents, Tally.ofEvent, Tally.add_def, Tally.zero_def,
          Heuristic.Outcome.isFailed, Nat.add_comm 1]

theorem ofEvents_lookups (selectors : List String) :
    Tally.ofEvents (selectors.map fun s => .pathCache (c.resolves root s)) = 0 := by
  induction selectors with
  | nil => rfl
  | cons s rest ih =>
    rw [List.map_cons, Tally.ofEvents_cons, ih]
    rfl

end Compiler

namespace Job

/-- The expected events, where all that can be a hit is one. -/
def events (j : Job) : List Event := j.task.events j.compiler j.root

/-- What the job adds to the tally. -/
def tally (j : Job) : Tally where
  compileCalls := [j.answer].countP Reply.isSearch
  compileFailures := [j.answer].countP Reply.isFailedSearch
  comparisons := j.lowered.length
  terms := j.terms.length
  skipped := j.skipped.length

/-- The events for the keyword, the filter and the order. -/
def partEvents (j : Job) : List Event :=
  (j.keyword?.toList.flatMap fun (propagate, keyword) =>
    j.compiler.keywordEvents j.root propagate keyword) ++
    (j.filter?.toList.flatMap (j.compiler.filterEvents j.root) ++
      (tried (j.compiler.resolves j.root) j.properties).map fun s =>
        .pathCache (j.compiler.resolves j.root s))

theorem searchEvents_eq (c : Compiler) (root : Schema) (o : SearchOptions) :
    c.searchEvents root o = partEvents ⟨c, root, .search o⟩ := by
  unfold Compiler.searchEvents partEvents
  cases hcheck : o.check c.settings root with
  | error e =>
    simp [keyword?, filter?, properties, options?, hcheck, Except.isOk, Except.toBool, tried]
  | ok _ =>
    have hkeyword : (⟨c, root, .search o⟩ : Job).keyword? =
        o.givenKeyword.map (o.propagate, ·) := by
      simp [keyword?, options?, hcheck, Except.isOk, Except.toBool]
    have hfilter : (⟨c, root, .search o⟩ : Job).filter? = o.filter := by
      simp [filter?, options?, hcheck, Except.isOk, Except.toBool]
    have hproperties : (⟨c, root, .search o⟩ : Job).properties =
        if (c.filterPart root o.filter).isOk then o.sort.map (·.property) else [] := by
      simp [properties, options?, hcheck, Except.isOk, Except.toBool]
    rw [hkeyword, hfilter, hproperties]
    cases o.givenKeyword <;> cases (c.filterPart root o.filter).isOk <;> rfl

variable {c : Compiler} {root : Schema}

theorem events_traverse (propagate : List String) (keyword : String) :
    events ⟨c, root, .traverse propagate keyword⟩ =
      partEvents ⟨c, root, .traverse propagate keyword⟩ := by
  simp [events, Task.events, partEvents, keyword?, filter?, properties, options?, tried]

theorem events_compile (f : Filter) :
    events ⟨c, root, .compile f⟩ = partEvents ⟨c, root, .compile f⟩ := by
  simp [events, Task.events, partEvents, keyword?, filter?, properties, options?, tried]

theorem events_search (o : SearchOptions) : events ⟨c, root, .search o⟩ =
    [.compileStart root.name] ++ (partEvents ⟨c, root, .search o⟩ ++
      [.compileFinish root.name (c.search root o).isOk]) := by
  rw [← searchEvents_eq]
  rfl

theorem ofEvents_partEvents (j : Job) : Tally.ofEvents j.partEvents =
    { comparisons := j.lowered.length
      terms := j.terms.length
      skipped := j.skipped.length } := by
  rw [partEvents, Tally.ofEvents_append, Tally.ofEvents_append, Compiler.ofEvents_lookups,
    add_zero, lowered, terms, skipped]
  cases j.keyword? <;> cases j.filter? <;>
    simp [Compiler.ofEvents_keywordEvents, Compiler.ofEvents_filterEvents, Tally.ofEvents_nil,
      Tally.add_def, Tally.zero_def]

theorem ofEvents_events (j : Job) : Tally.ofEvents j.events = j.tally := by
  obtain ⟨c, root, task⟩ := j
  cases task with
  | resolve | targets => rfl
  | traverse propagate keyword =>
    rw [events_traverse, ofEvents_partEvents]
    rfl
  | compile f =>
    rw [events_compile, ofEvents_partEvents]
    rfl
  | search o =>
    rw [events_search, Tally.ofEvents_append, Tally.ofEvents_append, ofEvents_partEvents,
      tally, answer, Task.answer]
    cases c.search root o <;>
      simp [Reply.isSearch, Reply.isFailedSearch, Tally.ofEvents, Tally.ofEvent,
        Tally.zero_def, Tally.add_def, Except.isOk, Except.toBool]

end Job

/-! ## Expected lookups -/

/-- Whether a path was found in the memory. -/
def Event.hit? : Event → Option Bool
  | pathCache hit => some hit
  | _ => none

theorem Event.hits_of_within {es es' : List Event} (h : es.Forall₂ Within es') :
    (es.filterMap hit?).Forall₂ (fun hit found => hit = true → found = true)
      (es'.filterMap hit?) := by
  induction h with
  | nil => exact .nil
  | @cons e e' _ _ hhead _ ih =>
    cases hhead with
    | same => cases e <;> first | exact ih | exact .cons id ih
    | path => exact .cons nofun ih
    | target => exact ih

theorem Metrics.paths_count (m : Metrics) (es : List Event) :
    (m.count es).paths = ⟨m.paths.hits + wrapped ((es.filterMap Event.hit?).count true),
      m.paths.misses + wrapped ((es.filterMap Event.hit?).count false)⟩ := by
  induction es generalizing m with
  | nil =>
    rw [List.filterMap_nil, List.count_nil, List.count_nil]
    exact congrArg₂ CacheCounters.mk (UInt64.add_zero _).symm (UInt64.add_zero _).symm
  | cons e es ih =>
    rw [count, List.foldl_cons, ← count, ih]
    cases e with
    | pathCache hit =>
      cases hit <;>
        simp [add, CacheCounters.add, Event.hit?, wrapped_succ, wrappingSucc, UInt64.add_assoc,
          UInt64.add_comm 1]
    | compileFinish _ ok => cases ok <;> rfl
    | _ => rfl

namespace Compiler

variable {c : Compiler} {root : Schema}

theorem hits_comparisonEvents (cmp : Comparison) :
    (c.comparisonEvents root cmp).filterMap Event.hit? =
      if (Operator.ofSymbol? cmp.operator).isSome then [c.resolves root cmp.selector] else [] := by
  unfold comparisonEvents operatorOf
  cases Operator.ofSymbol? cmp.operator with
  | none => rfl
  | some op => cases c.compiles root cmp <;> rfl

theorem hits_comparisons (cmps : List Comparison) :
    (cmps.flatMap (c.comparisonEvents root)).filterMap Event.hit? =
      ((cmps.filter fun cmp => (Operator.ofSymbol? cmp.operator).isSome).map (·.selector)).map
        (c.resolves root) := by
  induction cmps with
  | nil => rfl
  | cons cmp rest ih =>
    rw [List.flatMap_cons, List.filterMap_append, hits_comparisonEvents, ih, List.filter_cons]
    split <;> rfl

theorem hits_keywordEvents (propagate : List String) (keyword : String) :
    (c.keywordEvents root propagate keyword).filterMap Event.hit? = [] := by
  unfold keywordEvents
  split
  · rfl
  · rw [List.filterMap_eq_nil_iff]
    intro e he
    rcases List.mem_cons.mp he with rfl | he
    · rfl
    · obtain ⟨t, -, he⟩ := List.mem_flatMap.mp he
      unfold Work.targetEvents at he
      split at he
      · rw [List.mem_singleton.mp he]
        rfl
      · cases he
      · rw [List.mem_singleton.mp he]
        rfl

theorem hits_lookups (selectors : List String) :
    (selectors.map fun s => Event.pathCache (c.resolves root s)).filterMap Event.hit? =
      selectors.map (c.resolves root) := by
  rw [List.filterMap_map]
  exact congrFun List.filterMap_eq_map _

end Compiler

namespace Job

theorem hits_partEvents (j : Job) : j.partEvents.filterMap Event.hit? =
    ((j.comparisons.filter fun cmp => (Operator.ofSymbol? cmp.operator).isSome).map (·.selector) ++
      tried (j.compiler.resolves j.root) j.properties).map (j.compiler.resolves j.root) := by
  have hkeyword : (j.keyword?.toList.flatMap fun (propagate, keyword) =>
      j.compiler.keywordEvents j.root propagate keyword).filterMap Event.hit? = [] := by
    cases j.keyword? with
    | none => rfl
    | some k => rw [Option.toList_some, List.flatMap_singleton, Compiler.hits_keywordEvents]
  have hfilter : j.filter?.toList.flatMap (j.compiler.filterEvents j.root) =
      j.comparisons.flatMap (j.compiler.comparisonEvents j.root) := by
    rw [comparisons, List.flatMap_assoc]
    rfl
  rw [partEvents, List.filterMap_append, List.filterMap_append, hkeyword, hfilter,
    Compiler.hits_comparisons, Compiler.hits_lookups, List.nil_append, List.map_append]

theorem hits_events (j : Job) :
    j.events.filterMap Event.hit? = j.resolutions.map Except.isOk := by
  rw [resolutions, List.map_map]
  change _ = j.selectors.map (j.compiler.resolves j.root)
  obtain ⟨c, root, task⟩ := j
  cases task with
  | resolve | targets => rfl
  | traverse propagate keyword =>
    rw [events_traverse, hits_partEvents]
    rfl
  | compile f =>
    rw [events_compile, hits_partEvents]
    rfl
  | search o =>
    rw [events_search, List.filterMap_append, List.filterMap_append, hits_partEvents]
    exact List.append_nil _

end Job

end RecordFilter
