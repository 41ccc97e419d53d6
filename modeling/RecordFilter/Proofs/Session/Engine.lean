import RecordFilter.Proofs.Coercion.Memory
import RecordFilter.Session.Engine

/-!
# What an engine remembers

An engine is consistent with a collection of schemas when each entry of its memory is what would be
found anew for one of them. Every piece of work keeps that, and gives what the compiler without any
memory gives.
-/

namespace RecordFilter

/-- An identity belongs to one schema. -/
def Identified (schemas : List KnownSchema) : Prop :=
  ∀ k ∈ schemas, ∀ k' ∈ schemas, k.identity = k'.identity → k.schema = k'.schema

/-- Each entry of the memory is what one of the schemas gives for its key. -/
structure Engine.Consistent (schemas : List KnownSchema) (e : Engine) : Prop where
  paths : ∀ entry ∈ e.paths, ∃ k ∈ schemas, k.identity = entry.1.1 ∧
    k.schema.resolve e.settings.maxDepth entry.1.2 = .ok entry.2
  targets : ∀ entry ∈ e.targets, ∃ k ∈ schemas, k.identity = entry.1.1 ∧
    k.schema.targets e.settings.maxDepth.toNat entry.1.2 = entry.2

/-- The engine and its coercer work for the compiler `c`, and what they remember is true. -/
structure Engine.Run.Serves (schemas : List KnownSchema) (c : Compiler) (r : Engine.Run) :
    Prop where
  settings : r.engine.settings = c.settings
  coercer : r.coercer.forget = c.coercer
  truthful : r.coercer.Truthful
  consistent : r.engine.Consistent schemas

namespace Compiler

theorem lower_congr {c d : Compiler} (hs : c.settings = d.settings)
    (hc : c.coercer.coerce = d.coercer.coerce) (op : Operator) (path : Path)
    (arguments : List String) : c.lower op path arguments = d.lower op path arguments := by
  have hall : c.coercer.coerceAll = d.coercer.coerceAll := by
    funext target raws
    rw [Coercer.coerceAll, Coercer.coerceAll, hc]
  simp only [lower, lowerEquality, lowerOrdering, lowerMembership, hs, hc, hall]

end Compiler

theorem Target.outcome_congr {c d : Coercer} (h : c.convert = d.convert) (t : Target)
    (keyword : String) : t.outcome c keyword = t.outcome d keyword := by
  simp only [outcome, Heuristic.apply, Heuristic.equality, h]

namespace Work

variable {schemas : List KnownSchema} {c : Compiler} {α β : Type}

/-- Whatever is remembered, the work has the result `a` and leaves a memory that is true. -/
def Gives (schemas : List KnownSchema) (c : Compiler) (w : Work α) (a : α) : Prop :=
  ∀ r : Engine.Run, r.Serves schemas c →
    (StateT.run w r).1 = a ∧ (StateT.run w r).2.Serves schemas c

theorem gives_pure (a : α) : Gives schemas c (pure a : Work α) a := fun _ hr => ⟨rfl, hr⟩

theorem Gives.bind {w : Work α} {k : α → Work β} {a : α} {b : β} (hw : Gives schemas c w a)
    (hk : Gives schemas c (k a) b) : Gives schemas c (w >>= k) b := by
  intro r hr
  obtain ⟨ha, hr'⟩ := hw r hr
  have hrun : StateT.run (w >>= k) r = StateT.run (k a) (StateT.run w r).2 := by rw [← ha]; rfl
  rw [hrun]
  exact hk _ hr'

theorem Gives.map {w : Work α} {a : α} (f : α → β) (hw : Gives schemas c w a) :
    Gives schemas c (f <$> w) (f a) :=
  fun r hr => ⟨congrArg f (hw r hr).1, (hw r hr).2⟩

theorem gives_get {k : Engine.Run → Work α} {a : α}
    (h : ∀ r : Engine.Run, r.Serves schemas c → Gives schemas c (k r) a) :
    Gives schemas c (get >>= k) a :=
  fun r hr => h r hr r hr

theorem gives_modify {f : Engine.Run → Engine.Run}
    (h : ∀ r : Engine.Run, r.Serves schemas c → (f r).Serves schemas c) :
    Gives schemas c (modify f : Work Unit) () :=
  fun r hr => ⟨rfl, h r hr⟩

theorem gives_report (e : Event) : Gives schemas c (report e) () :=
  gives_modify fun _ hr => ⟨hr.settings, hr.coercer, hr.truthful, hr.consistent⟩

theorem gives_reportAll (es : List Event) : Gives schemas c (reportAll es) () :=
  gives_modify fun _ hr => ⟨hr.settings, hr.coercer, hr.truthful, hr.consistent⟩

theorem gives_noteCoercions (target : FieldType) (raws : List String) :
    Gives schemas c (noteCoercions target raws) () := by
  apply gives_modify
  intro r hr
  obtain ⟨hforget, htruth⟩ := Coercer.extends_afterAll target raws r.coercer
  exact ⟨hr.settings, hforget.trans hr.coercer, htruth hr.truthful, hr.consistent⟩

theorem gives_compiler {k : Compiler → Work α} {a : α}
    (h : ∀ d : Compiler, d.settings = c.settings → d.coercer.Truthful →
      d.coercer.forget = c.coercer → Gives schemas c (k d) a) :
    Gives schemas c (compiler >>= k) a :=
  fun r hr => h ⟨r.engine.settings, r.coercer⟩ hr.settings hr.truthful hr.coercer r hr

/-! ## Paths -/

theorem gives_rememberPath {root : KnownSchema} {selector : String} {p : Path}
    (hroot : root ∈ schemas) (hp : c.resolve root.schema selector = .ok p) :
    Gives schemas c (rememberPath (root.identity, selector) p) () := by
  apply gives_modify
  intro r hr
  refine ⟨hr.settings, hr.coercer, hr.truthful, ?_, hr.consistent.targets⟩
  intro entry hmem
  rcases List.mem_cons.mp hmem with rfl | hmem
  · refine ⟨root, hroot, rfl, ?_⟩
    simpa only [Compiler.resolve, hr.settings] using hp
  · exact hr.consistent.paths entry hmem

theorem resolve_of_remembered {r : Engine.Run} (hid : Identified schemas) {root : KnownSchema}
    (hroot : root ∈ schemas) (hr : r.Serves schemas c) {selector : String} {p : Path}
    (h : r.engine.paths.lookup (root.identity, selector) = some p) :
    c.resolve root.schema selector = .ok p := by
  obtain ⟨before, after, heq, -⟩ := List.lookup_eq_some_iff.mp h
  obtain ⟨k, hk, hident, hp⟩ := hr.consistent.paths ((root.identity, selector), p) (by simp [heq])
  rw [Compiler.resolve, hid root hroot k hk hident.symm, ← hr.settings]
  exact hp

theorem gives_resolve (hid : Identified schemas) {root : KnownSchema} (hroot : root ∈ schemas)
    (selector : String) :
    Gives schemas c (resolve root selector) (c.resolve root.schema selector) := by
  apply gives_get
  intro r hr
  split
  · rename_i p hp
    rw [resolve_of_remembered hid hroot hr hp]
    exact (gives_report _).bind (gives_pure _)
  · refine (gives_report _).bind (gives_compiler fun d hd _ _ => ?_)
    have hsame : d.resolve root.schema selector = c.resolve root.schema selector := by
      rw [Compiler.resolve, Compiler.resolve, hd]
    rw [hsame]
    split
    · rename_i p hp
      rw [hp]
      exact (gives_rememberPath hroot hp).bind (gives_pure _)
    · rename_i e he
      rw [he]
      exact gives_pure _

/-! ## Filters -/

theorem gives_compileComparison (hid : Identified schemas) {root : KnownSchema}
    (hroot : root ∈ schemas) (cmp : Comparison) :
    Gives schemas c (compileComparison root cmp) (c.compileComparison root.schema cmp) := by
  unfold compileComparison Compiler.compileComparison
  cases Compiler.operatorOf cmp with
  | error e => exact gives_pure _
  | ok op =>
    refine (gives_resolve hid hroot cmp.selector).bind ?_
    cases c.resolve root.schema cmp.selector with
    | error e => exact gives_pure _
    | ok path =>
      refine gives_compiler fun d hd htruth hforget => ?_
      have hlower : d.lower op path cmp.arguments = c.lower op path cmp.arguments :=
        Compiler.lower_congr hd (by rw [Coercer.coerce_forget htruth, hforget]) op path _
      refine (gives_noteCoercions _ _).bind ?_
      rw [hlower]
      change Gives schemas c _
        ((c.lower op path cmp.arguments).mapError (Compiler.coercionFault cmp))
      cases c.lower op path cmp.arguments with
      | error e => exact gives_pure _
      | ok expr => exact (gives_report _).bind (gives_pure _)

mutual

theorem gives_compile (hid : Identified schemas) {root : KnownSchema} (hroot : root ∈ schemas) :
    ∀ f : Filter, Gives schemas c (compile root f) (c.compile root.schema f)
  | .and parts => (gives_compileAll hid hroot parts).bind (gives_pure _)
  | .or parts => (gives_compileAll hid hroot parts).bind (gives_pure _)
  | .compare cmp => gives_compileComparison hid hroot cmp

theorem gives_compileAll (hid : Identified schemas) {root : KnownSchema} (hroot : root ∈ schemas) :
    ∀ fs : List Filter, Gives schemas c (compileAll root fs) (c.compileAll root.schema fs)
  | [] => gives_pure _
  | f :: rest => by
    rw [compileAll, Compiler.compileAll]
    refine (gives_compile hid hroot f).bind ?_
    cases c.compile root.schema f with
    | error e => exact gives_pure _
    | ok e => exact (gives_compileAll hid hroot rest).bind (gives_pure _)

end

/-! ## Keywords -/

theorem gives_rememberTargets {root : KnownSchema} {propagate : List String}
    (hroot : root ∈ schemas) :
    Gives schemas c (rememberTargets (root.identity, propagate) (c.targets root.schema propagate))
      () := by
  apply gives_modify
  intro r hr
  refine ⟨hr.settings, hr.coercer, hr.truthful, hr.consistent.paths, ?_⟩
  intro entry hmem
  rcases List.mem_cons.mp hmem with rfl | hmem
  · exact ⟨root, hroot, rfl, by rw [Compiler.targets, hr.settings]⟩
  · exact hr.consistent.targets entry hmem

theorem targets_of_remembered {r : Engine.Run} (hid : Identified schemas) {root : KnownSchema}
    (hroot : root ∈ schemas) (hr : r.Serves schemas c) {propagate : List String}
    {ts : List Target} (h : r.engine.targets.lookup (root.identity, propagate) = some ts) :
    c.targets root.schema propagate = ts := by
  obtain ⟨before, after, heq, -⟩ := List.lookup_eq_some_iff.mp h
  obtain ⟨k, hk, hident, hts⟩ :=
    hr.consistent.targets ((root.identity, propagate), ts) (by simp [heq])
  rw [Compiler.targets, hid root hroot k hk hident.symm, ← hr.settings]
  exact hts

theorem gives_targets (hid : Identified schemas) {root : KnownSchema} (hroot : root ∈ schemas)
    (propagate : List String) :
    Gives schemas c (targets root propagate) (c.targets root.schema propagate) := by
  apply gives_get
  intro r hr
  split
  · rename_i ts hts
    rw [targets_of_remembered hid hroot hr hts]
    exact (gives_report _).bind (gives_pure _)
  · refine (gives_report _).bind (gives_compiler fun d hd _ _ => ?_)
    have hsame : d.targets root.schema propagate = c.targets root.schema propagate := by
      rw [Compiler.targets, Compiler.targets, hd]
    rw [hsame]
    exact (gives_rememberTargets hroot).bind (gives_pure _)

theorem gives_searchTarget (schema keyword : String) (t : Target) :
    Gives schemas c (searchTarget schema keyword t) (t.term? c.coercer keyword) := by
  apply gives_get
  intro r hr
  have houtcome : t.outcome r.coercer keyword = t.outcome c.coercer keyword := by
    apply Target.outcome_congr
    funext target
    rw [Coercer.convert_forget hr.truthful, hr.coercer]
  have hterm : t.term? r.coercer keyword = t.term? c.coercer keyword := by
    rw [Target.term?, Target.term?, houtcome]
  rw [← hterm]
  dsimp only
  split
  · exact (gives_noteCoercions _ _).bind ((gives_reportAll _).bind (gives_pure _))
  · exact (gives_reportAll _).bind (gives_pure _)

theorem gives_searchAll (schema keyword : String) (ts : List Target) :
    Gives schemas c (searchAll schema keyword ts) (ts.filterMap (·.term? c.coercer keyword)) := by
  induction ts with
  | nil => exact gives_pure _
  | cons t rest ih =>
    have hcons : (t :: rest).filterMap (·.term? c.coercer keyword) =
        (t.term? c.coercer keyword).toList ++ rest.filterMap (·.term? c.coercer keyword) := by
      cases h : t.term? c.coercer keyword <;> simp [h]
    rw [hcons]
    exact (gives_searchTarget schema keyword t).bind (ih.bind (gives_pure _))

theorem gives_traverse (hid : Identified schemas) {root : KnownSchema} (hroot : root ∈ schemas)
    (propagate : List String) (keyword : String) :
    Gives schemas c (traverse root propagate keyword)
      (c.traverse root.schema propagate keyword) := by
  unfold traverse Compiler.traverse searchTargets
  split
  · exact gives_pure _
  · exact (gives_targets hid hroot propagate).bind ((gives_searchAll _ _ _).bind (gives_pure _))

/-! ## Searches -/

theorem gives_resolveOrders (hid : Identified schemas) {root : KnownSchema}
    (hroot : root ∈ schemas) (orders : List SortOrder) :
    Gives schemas c (resolveOrders root orders) (orders.mapM (c.resolveOrder root.schema)) := by
  induction orders with
  | nil => exact gives_pure _
  | cons o rest ih =>
    rw [List.mapM_cons, Compiler.resolveOrder]
    refine (gives_resolve hid hroot o.property).bind ?_
    cases c.resolve root.schema o.property with
    | error e => exact gives_pure _
    | ok path => exact ih.bind (gives_pure _)

theorem gives_filterPart (hid : Identified schemas) {root : KnownSchema} (hroot : root ∈ schemas)
    (f : Option Filter) :
    Gives schemas c (filterPart root f) (c.filterPart root.schema f) := by
  cases f with
  | none => exact gives_pure _
  | some f => exact (gives_compile hid hroot f).bind (gives_pure _)

theorem gives_keywordPart (hid : Identified schemas) {root : KnownSchema} (hroot : root ∈ schemas)
    (o : SearchOptions) :
    Gives schemas c (keywordPart root o)
      (o.givenKeyword.toList.map (c.traverse root.schema o.propagate)) := by
  unfold keywordPart
  cases o.givenKeyword with
  | none => exact gives_pure _
  | some k => exact (gives_traverse hid hroot o.propagate k).bind (gives_pure _)

theorem gives_searchParts (hid : Identified schemas) {root : KnownSchema} (hroot : root ∈ schemas)
    (o : SearchOptions) :
    Gives schemas c (searchParts root o) (c.search root.schema o) := by
  refine gives_compiler fun d hd _ _ => ?_
  unfold Compiler.search
  rw [hd]
  cases o.check c.settings root.schema with
  | error e => exact gives_pure _
  | ok _ =>
    refine (gives_keywordPart hid hroot o).bind ((gives_filterPart hid hroot o.filter).bind ?_)
    cases c.filterPart root.schema o.filter with
    | error e => exact gives_pure _
    | ok parts => exact (gives_resolveOrders hid hroot o.sort).bind (gives_pure _)

theorem gives_search (hid : Identified schemas) {root : KnownSchema} (hroot : root ∈ schemas)
    (o : SearchOptions) : Gives schemas c (search root o) (c.search root.schema o) :=
  (gives_report _).bind ((gives_searchParts hid hroot o).bind
    ((gives_report _).bind (gives_pure _)))

end Work

end RecordFilter
