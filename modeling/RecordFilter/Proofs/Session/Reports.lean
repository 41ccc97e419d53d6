import Mathlib.Data.List.Forall2
import RecordFilter.Proofs.Compile.Clauses
import RecordFilter.Proofs.Session.Pool

/-!
# What work reports

The events of a piece of work are known beforehand, whatever is remembered, but for one thing: a
path or the targets may be found in the memory or not. A selector that cannot be resolved is never
found there.
-/

namespace RecordFilter

/-- The event is the expected one, or it reports a miss where a hit was possible. -/
inductive Event.Within : Event → Event → Prop
  | same (e : Event) : Within e e
  | path : Within (.pathCache false) (.pathCache true)
  | target : Within (.targetCache false) (.targetCache true)

theorem Event.within_miss (found : Bool) : Within (.pathCache false) (.pathCache found) := by
  cases found with
  | true => exact .path
  | false => exact .same _

/-- The items up to the first that fails, which is tried as well. -/
def tried {α : Type} (succeeds : α → Bool) (l : List α) : List α :=
  l.take ((l.takeWhile succeeds).length + 1)

theorem tried_cons {α : Type} (succeeds : α → Bool) (a : α) (l : List α) :
    tried succeeds (a :: l) = a :: if succeeds a then tried succeeds l else [] := by
  unfold tried
  rw [List.takeWhile_cons]
  split <;> simp

theorem tried_singleton {α : Type} (succeeds : α → Bool) (a : α) : tried succeeds [a] = [a] :=
  List.take_of_length_le (by simp)

theorem tried_append {α : Type} (succeeds : α → Bool) (l l' : List α) :
    tried succeeds (l ++ l') =
      tried succeeds l ++ if l.all succeeds then tried succeeds l' else [] := by
  induction l with
  | nil => simp [tried]
  | cons a l ih =>
    rw [List.cons_append, tried_cons, tried_cons, ih, List.all_cons]
    cases succeeds a <;> simp

theorem isOk_iff {ε α : Type} {x : Except ε α} : x.isOk = true ↔ ∃ a, x = .ok a := by
  cases x <;> simp [Except.isOk, Except.toBool]

/-! ## Expected events -/

namespace Compiler

def resolves (c : Compiler) (root : Schema) (selector : String) : Bool :=
  (c.resolve root selector).isOk

def compiles (c : Compiler) (root : Schema) (cmp : Comparison) : Bool :=
  (c.compileComparison root cmp).isOk

variable (c : Compiler) (root : Schema)

theorem isOk_compile {c : Compiler} {root : Schema} {f : Filter} :
    (c.compile root f).isOk = f.leaves.all (c.compiles root) := by
  rw [Bool.eq_iff_iff, isOk_iff, exists_compile_iff, List.all_eq_true]
  exact forall₂_congr fun cmp _ => isOk_iff.symm

/-- What one comparison reports. -/
def comparisonEvents (cmp : Comparison) : List Event :=
  match operatorOf cmp with
  | .error _ => []
  | .ok op => .pathCache (c.resolves root cmp.selector) ::
      if c.compiles root cmp then [.comparison root.name op] else []

/-- What a filter reports. -/
def filterEvents (f : Filter) : List Event :=
  (tried (c.compiles root) f.leaves).flatMap (c.comparisonEvents root)

/-- What a keyword reports. -/
def keywordEvents (propagate : List String) (keyword : String) : List Event :=
  if (Text.trim keyword).isEmpty then []
  else .targetCache true :: (c.targets root propagate).flatMap
    (Work.targetEvents c.coercer root.name (Text.trim keyword))

/-- What an order reports. -/
def orderEvents (orders : List SortOrder) : List Event :=
  (tried (c.resolves root) (orders.map (·.property))).map fun s => .pathCache (c.resolves root s)

/-- What a search reports between its start and its end. -/
def searchEvents (o : SearchOptions) : List Event :=
  match o.check c.settings root with
  | .error _ => []
  | .ok () =>
    o.givenKeyword.toList.flatMap (c.keywordEvents root o.propagate) ++
      (o.filter.toList.flatMap (c.filterEvents root) ++
        if (c.filterPart root o.filter).isOk then c.orderEvents root o.sort else [])

end Compiler

/-- What a task reports. -/
def Task.events (c : Compiler) (root : Schema) : Task → List Event
  | resolve selector => [.pathCache (c.resolves root selector)]
  | targets _ => [.targetCache true]
  | traverse propagate keyword => c.keywordEvents root propagate keyword
  | compile f => c.filterEvents root f
  | search o => .compileStart root.name ::
      (c.searchEvents root o ++ [.compileFinish root.name (c.search root o).isOk])

/-! ## Work -/

namespace Work

variable {schemas : List KnownSchema} {c : Compiler} {α β : Type}

/-- Whatever is remembered, the work reports the events, up to hits. -/
def Reports (schemas : List KnownSchema) (c : Compiler) (w : Work α) (es : List Event) : Prop :=
  ∀ r : Engine.Run, r.Serves schemas c → ∃ reported,
    (StateT.run w r).2.events = r.events ++ reported ∧ reported.Forall₂ Event.Within es

theorem reports_of_silent {w : Work α} (h : ∀ r, (StateT.run w r).2.events = r.events) :
    Reports schemas c w [] := fun r _ => ⟨[], by simp [h], .nil⟩

theorem reports_pure (a : α) : Reports schemas c (pure a : Work α) [] :=
  reports_of_silent fun _ => rfl

theorem Reports.bind {w : Work α} {k : α → Work β} {a : α} {es es' : List Event}
    (ha : Gives schemas c w a) (hw : Reports schemas c w es) (hk : Reports schemas c (k a) es') :
    Reports schemas c (w >>= k) (es ++ es') := by
  intro r hr
  obtain ⟨hgives, hr'⟩ := ha r hr
  obtain ⟨reported, hevents, hwithin⟩ := hw r hr
  obtain ⟨reported', hevents', hwithin'⟩ := hk _ hr'
  have hrun : StateT.run (w >>= k) r = StateT.run (k a) (StateT.run w r).2 := by
    rw [← hgives]
    rfl
  refine ⟨reported ++ reported', ?_, List.rel_append hwithin hwithin'⟩
  rw [hrun, hevents', hevents, List.append_assoc]

theorem Reports.map {w : Work α} {es : List Event} (f : α → β) (hw : Reports schemas c w es) :
    Reports schemas c (f <$> w) es := fun r hr => hw r hr

theorem Reports.bind_silent {w : Work α} {k : α → Work β} {es : List Event}
    (hw : Reports schemas c w es) (hk : ∀ a r, (StateT.run (k a) r).2.events = r.events) :
    Reports schemas c (w >>= k) es := by
  intro r hr
  obtain ⟨reported, hevents, hwithin⟩ := hw r hr
  exact ⟨reported, (hk _ _).trans hevents, hwithin⟩

theorem reports_get {k : Engine.Run → Work α} {es : List Event}
    (h : ∀ r : Engine.Run, r.Serves schemas c → Reports schemas c (k r) es) :
    Reports schemas c (get >>= k) es := fun r hr => h r hr r hr

theorem reports_compiler {k : Compiler → Work α} {es : List Event}
    (h : ∀ d : Compiler, d.settings = c.settings → d.coercer.Truthful →
      d.coercer.forget = c.coercer → Reports schemas c (k d) es) :
    Reports schemas c (compiler >>= k) es :=
  fun r hr => h ⟨r.engine.settings, r.coercer⟩ hr.settings hr.truthful hr.coercer r hr

theorem reports_report {e e' : Event} (h : e.Within e') : Reports schemas c (report e) [e'] :=
  fun _ _ => ⟨[e], rfl, .cons h .nil⟩

theorem reports_reportAll (es : List Event) : Reports schemas c (reportAll es) es :=
  fun _ _ => ⟨es, rfl, List.forall₂_same.mpr fun e _ => .same e⟩

/-! ## Paths -/

section

variable (hid : Identified schemas) {root : KnownSchema} (hroot : root ∈ schemas)

include hid hroot

theorem reports_resolve (selector : String) :
    Reports schemas c (resolve root selector) [.pathCache (c.resolves root.schema selector)] := by
  apply reports_get
  intro r hr
  split
  · rename_i p hp
    rw [Compiler.resolves, resolve_of_remembered hid hroot hr hp]
    exact (reports_report (.same _)).bind_silent fun _ _ => rfl
  · refine Reports.bind (gives_report _) (reports_report (Event.within_miss _))
      (reports_compiler fun d _ _ _ => ?_)
    split
    · exact reports_of_silent fun _ => rfl
    · exact reports_pure _

/-! ## Filters -/

theorem reports_compileComparison (cmp : Comparison) :
    Reports schemas c (compileComparison root cmp) (c.comparisonEvents root.schema cmp) := by
  unfold compileComparison Compiler.comparisonEvents Compiler.compiles Compiler.compileComparison
  cases Compiler.operatorOf cmp with
  | error e => exact reports_pure _
  | ok op =>
    refine Reports.bind (gives_resolve hid hroot cmp.selector)
      (reports_resolve hid hroot cmp.selector) ?_
    cases c.resolve root.schema cmp.selector with
    | error e => exact reports_pure _
    | ok path =>
      refine reports_compiler fun d hd htruth hforget => ?_
      have hlower : d.lower op path cmp.arguments = c.lower op path cmp.arguments :=
        Compiler.lower_congr hd (by rw [Coercer.coerce_forget htruth, hforget]) op path _
      have hnote : Reports schemas c (noteCoercions path.terminal
          (Compiler.coercedArguments op path cmp.arguments)) [] := reports_of_silent fun _ => rfl
      refine Reports.bind (gives_noteCoercions _ _) hnote ?_
      rw [hlower]
      change Reports schemas c _
        (if ((c.lower op path cmp.arguments).mapError (Compiler.coercionFault cmp)).isOk then
          [.comparison root.schema.name op] else [])
      cases c.lower op path cmp.arguments with
      | error e => exact reports_pure _
      | ok expr => exact (reports_report (.same _)).bind_silent fun _ _ => rfl

mutual

theorem reports_compile : ∀ f : Filter,
    Reports schemas c (compile root f) (c.filterEvents root.schema f)
  | .and parts => (reports_compileAll parts).bind_silent fun _ _ => rfl
  | .or parts => (reports_compileAll parts).bind_silent fun _ _ => rfl
  | .compare cmp => by
    rw [compile, Compiler.filterEvents, Filter.leaves, tried_singleton, List.flatMap_singleton]
    exact reports_compileComparison hid hroot cmp

theorem reports_compileAll : ∀ fs : List Filter,
    Reports schemas c (compileAll root fs)
      ((tried (c.compiles root.schema) (Filter.leavesOf fs)).flatMap
        (c.comparisonEvents root.schema))
  | [] => reports_pure _
  | f :: rest => by
    rw [compileAll, Filter.leavesOf, tried_append, List.flatMap_append]
    refine Reports.bind (gives_compile hid hroot f) (reports_compile f) ?_
    cases hf : c.compile root.schema f with
    | error e =>
      have hfails : (f.leaves.all (c.compiles root.schema)) = false := by
        rw [← Compiler.isOk_compile, hf]
        rfl
      rw [hfails]
      exact reports_pure _
    | ok e =>
      have hcompiles : (f.leaves.all (c.compiles root.schema)) = true := by
        rw [← Compiler.isOk_compile, hf]
        rfl
      rw [hcompiles]
      exact (reports_compileAll rest).bind_silent fun _ _ => rfl

end

end

/-! ## Keywords -/

theorem reports_targets (root : KnownSchema) (propagate : List String) :
    Reports schemas c (targets root propagate) [.targetCache true] := by
  apply reports_get
  intro r hr
  split
  · exact (reports_report (.same _)).bind_silent fun _ _ => rfl
  · refine Reports.bind (gives_report _) (reports_report .target) ?_
    exact reports_compiler fun d _ _ _ => reports_of_silent fun _ => rfl

theorem reports_searchTarget (schema keyword : String) (t : Target) :
    Reports schemas c (searchTarget schema keyword t)
      (targetEvents c.coercer schema keyword t) := by
  apply reports_get
  intro r hr
  have houtcome : t.outcome r.coercer keyword = t.outcome c.coercer keyword := by
    apply Target.outcome_congr
    funext target
    rw [Coercer.convert_forget hr.truthful, hr.coercer]
  have hevents : targetEvents r.coercer schema keyword t =
      targetEvents c.coercer schema keyword t := by
    rw [targetEvents, targetEvents, houtcome]
  rw [← hevents]
  dsimp only
  split
  · have hnote : Reports schemas c (noteCoercions t.path.terminal [keyword]) [] :=
      reports_of_silent fun _ => rfl
    exact Reports.bind (gives_noteCoercions _ _) hnote
      ((reports_reportAll _).bind_silent fun _ _ => rfl)
  · exact (reports_reportAll _).bind_silent fun _ _ => rfl

theorem reports_searchAll (schema keyword : String) (ts : List Target) :
    Reports schemas c (searchAll schema keyword ts)
      (ts.flatMap (targetEvents c.coercer schema keyword)) := by
  induction ts with
  | nil => exact reports_pure _
  | cons t rest ih =>
    rw [List.flatMap_cons]
    exact Reports.bind (gives_searchTarget schema keyword t) (reports_searchTarget schema keyword t)
      (ih.bind_silent fun _ _ => rfl)

section

variable (hid : Identified schemas) {root : KnownSchema} (hroot : root ∈ schemas)

include hid hroot

theorem reports_traverse (propagate : List String) (keyword : String) :
    Reports schemas c (traverse root propagate keyword)
      (c.keywordEvents root.schema propagate keyword) := by
  unfold traverse Compiler.keywordEvents
  split
  · exact reports_pure _
  · exact Reports.bind (gives_targets hid hroot propagate) (reports_targets root propagate)
      ((reports_searchAll _ _ _).bind_silent fun _ _ => rfl)

/-! ## Searches -/

theorem reports_resolveOrders (orders : List SortOrder) :
    Reports schemas c (resolveOrders root orders) (c.orderEvents root.schema orders) := by
  induction orders with
  | nil => exact reports_pure _
  | cons o rest ih =>
    rw [Compiler.orderEvents, List.map_cons, tried_cons, List.map_cons]
    refine Reports.bind (gives_resolve hid hroot o.property)
      (reports_resolve hid hroot o.property) ?_
    rw [Compiler.resolves]
    cases c.resolve root.schema o.property with
    | error e => exact reports_pure _
    | ok path => exact ih.bind_silent fun _ _ => rfl

theorem reports_filterPart (f : Option Filter) :
    Reports schemas c (filterPart root f) (f.toList.flatMap (c.filterEvents root.schema)) := by
  cases f with
  | none => exact reports_pure _
  | some f =>
    rw [Option.toList_some, List.flatMap_singleton]
    exact (reports_compile hid hroot f).bind_silent fun _ _ => rfl

theorem reports_keywordPart (o : SearchOptions) :
    Reports schemas c (keywordPart root o)
      (o.givenKeyword.toList.flatMap (c.keywordEvents root.schema o.propagate)) := by
  unfold keywordPart
  cases o.givenKeyword with
  | none => exact reports_pure _
  | some k =>
    rw [Option.toList_some, List.flatMap_singleton]
    exact (reports_traverse hid hroot o.propagate k).bind_silent fun _ _ => rfl

theorem reports_searchParts (o : SearchOptions) :
    Reports schemas c (searchParts root o) (c.searchEvents root.schema o) := by
  refine reports_compiler fun d hd _ _ => ?_
  unfold Compiler.searchEvents
  rw [hd]
  cases o.check c.settings root.schema with
  | error e => exact reports_pure _
  | ok _ =>
    refine Reports.bind (gives_keywordPart hid hroot o) (reports_keywordPart hid hroot o) ?_
    refine Reports.bind (gives_filterPart hid hroot o.filter)
      (reports_filterPart hid hroot o.filter) ?_
    cases c.filterPart root.schema o.filter with
    | error e => exact reports_pure _
    | ok parts => exact (reports_resolveOrders hid hroot o.sort).bind_silent fun _ _ => rfl

theorem reports_search (o : SearchOptions) :
    Reports schemas c (search root o) (Task.events c root.schema (.search o)) := by
  refine Reports.bind (gives_report _) (reports_report (.same _)) ?_
  refine Reports.bind (gives_searchParts hid hroot o) (reports_searchParts hid hroot o) ?_
  exact (reports_report (.same _)).bind_silent fun _ _ => rfl

theorem reports_work (task : Task) :
    Reports schemas c (task.work root) (task.events c root.schema) := by
  cases task with
  | resolve selector => exact (reports_resolve hid hroot selector).map _
  | targets propagate => exact (reports_targets root propagate).map _
  | traverse propagate keyword => exact (reports_traverse hid hroot propagate keyword).map _
  | compile f => exact (reports_compile hid hroot f).map _
  | search o => exact (reports_search hid hroot o).map _

end

end Work

end RecordFilter
