import RecordFilter.Expr.Eval
import RecordFilter.Proofs.Yields
import RecordFilter.Search.Basic

/-!
# What a search comes to

A search is refused for the first of four reasons: names to follow that are no associations, a page
without rows, a filter that does not compile, a property to sort by that does not resolve. Otherwise
a row matches when the keyword and the filter match it, as far as they are given.
-/

namespace RecordFilter

open RecordFilter.Text

/-! ## Reasons to refuse a search -/

namespace Schema

def HasAssociation (root : Schema) (name : String) : Prop :=
  ∃ f, root.field? name = some f ∧ f.kind = .association

theorem isAssociation_iff {root : Schema} {name : String} :
    root.isAssociation name = true ↔ root.HasAssociation name := by
  unfold isAssociation HasAssociation
  cases root.field? name <;> simp

instance (root : Schema) (name : String) : Decidable (root.HasAssociation name) :=
  decidable_of_iff _ isAssociation_iff

theorem unknownNames_eq (root : Schema) (propagate : List String) :
    root.unknownNames propagate = propagate.filter fun name => ¬ root.HasAssociation name := by
  unfold unknownNames
  congr 1
  funext name
  rw [Bool.eq_iff_iff]
  simp [← isAssociation_iff]

end Schema

namespace SearchOptions

/-- A name that the keyword may follow is not that of an association, which the settings forbid. -/
def Strays (o : SearchOptions) (settings : Settings) (root : Schema) : Prop :=
  settings.strictPropagation = true ∧ ∃ name ∈ o.propagate, ¬ root.HasAssociation name

def HasEmptyPage (o : SearchOptions) : Prop := ∃ p ∈ o.page, p.size = 0

instance (o : SearchOptions) (settings : Settings) (root : Schema) :
    Decidable (o.Strays settings root) :=
  inferInstanceAs (Decidable (_ ∧ _))

instance (o : SearchOptions) : Decidable o.HasEmptyPage :=
  inferInstanceAs (Decidable (∃ p ∈ o.page, p.size = 0))

end SearchOptions

namespace Compiler

variable {c : Compiler} {root : Schema} {o : SearchOptions} {err : SearchError}

def FilterFails (c : Compiler) (root : Schema) (o : SearchOptions) (e : CompileError) : Prop :=
  ∃ f ∈ o.filter, c.compile root f = .error e

/-- The property is the first one to sort by that does not resolve. -/
def SortFails (c : Compiler) (root : Schema) (o : SearchOptions) (property : String)
    (e : PathError) : Prop :=
  ∃ before order after, o.sort = before ++ order :: after ∧
    (∀ b ∈ before, ∃ p, c.resolve root b.property = .ok p) ∧
      order.property = property ∧ c.resolve root property = .error e

/-- The first reason to refuse the search. -/
inductive Refuses (c : Compiler) (root : Schema) (o : SearchOptions) : SearchError → Prop
  | unknownPropagation (hnames : o.Strays c.settings root) :
      Refuses c root o (.unknownPropagation root.name
        (o.propagate.filter fun name => ¬ root.HasAssociation name))
  | emptyPage (hnames : ¬ o.Strays c.settings root) (hpage : o.HasEmptyPage) :
      Refuses c root o .emptyPage
  | compile {e : CompileError} (hnames : ¬ o.Strays c.settings root) (hpage : ¬ o.HasEmptyPage)
      (hfilter : FilterFails c root o e) : Refuses c root o (.compile e)
  | sort {property : String} {e : PathError} (hnames : ¬ o.Strays c.settings root)
      (hpage : ¬ o.HasEmptyPage) (hfilter : ∀ e, ¬ FilterFails c root o e)
      (hsort : SortFails c root o property e) : Refuses c root o (.sort property e)

/-- The search says what its keyword and its filter say, and sorts and pages as was asked. -/
structure Answers (c : Compiler) (root : Schema) (o : SearchOptions) (s : CompiledSearch) :
    Prop where
  eval : ∀ row, s.filter.eval row = true ↔
    (∀ k ∈ o.keyword, trim k ≠ "" → (c.traverse root o.propagate k).eval row = true) ∧
      ∀ f ∈ o.filter, ∃ e, c.compile root f = .ok e ∧ e.eval row = true
  filterAlone : (∀ k ∈ o.keyword, trim k = "") → ∀ f ∈ o.filter, c.compile root f = .ok s.filter
  sort : o.sort.Forall₂ (fun order r =>
    c.resolve root order.property = .ok r.path ∧ r.direction = order.direction) s.sort
  page : s.page = o.page

/-! ## The parts of a search -/

theorem check_eq (o : SearchOptions) (settings : Settings) (root : Schema) :
    o.check settings root =
      if o.Strays settings root then .error (.unknownPropagation root.name
        (o.propagate.filter fun name => ¬ root.HasAssociation name))
      else if o.HasEmptyPage then .error .emptyPage
      else .ok () := by
  have hnames : (settings.strictPropagation = true ∧
      (!(root.unknownNames o.propagate).isEmpty) = true) ↔ o.Strays settings root := by
    simp [SearchOptions.Strays, Schema.unknownNames_eq, List.filter_eq_nil_iff]
  have hpage : o.page.any (·.size == 0) = true ↔ o.HasEmptyPage := by
    simp [SearchOptions.HasEmptyPage, Option.any_eq_true]
  unfold SearchOptions.check
  dsimp only
  rw [← Schema.unknownNames_eq, if_congr hnames rfl (if_congr hpage rfl rfl)]

theorem check_eq_error_iff : o.check c.settings root = .error err ↔
    (o.Strays c.settings root ∧ err = .unknownPropagation root.name
        (o.propagate.filter fun name => ¬ root.HasAssociation name)) ∨
      ¬ o.Strays c.settings root ∧ o.HasEmptyPage ∧ err = .emptyPage := by
  rw [check_eq]
  by_cases h : o.Strays c.settings root
  · simp [h, eq_comm]
  · by_cases h' : o.HasEmptyPage <;> simp [h, h', eq_comm]

theorem check_eq_ok_iff {u : Unit} : o.check c.settings root = .ok u ↔
    ¬ o.Strays c.settings root ∧ ¬ o.HasEmptyPage := by
  rw [check_eq]
  by_cases h : o.Strays c.settings root
  · simp [h]
  · by_cases h' : o.HasEmptyPage <;> simp [h, h']

theorem filterPart_eq_error_iff :
    c.filterPart root o.filter = .error err ↔ ∃ e, FilterFails c root o e ∧ err = .compile e := by
  unfold FilterFails filterPart
  cases o.filter with
  | none => simp
  | some f => cases h : c.compile root f <;> simp [h, Except.map, Except.mapError, eq_comm]

theorem filterPart_eq_ok_iff {parts : List Expr} :
    c.filterPart root o.filter = .ok parts ↔
      (o.filter = none ∧ parts = []) ∨
        ∃ f e, o.filter = some f ∧ c.compile root f = .ok e ∧ parts = [e] := by
  unfold filterPart
  cases o.filter with
  | none => simp [eq_comm]
  | some f => cases h : c.compile root f <;> simp [h, Except.map, Except.mapError, eq_comm]

theorem exists_filterPart_iff :
    (∃ parts, c.filterPart root o.filter = .ok parts) ↔ ∀ e, ¬ FilterFails c root o e := by
  constructor
  · rintro ⟨parts, hparts⟩ e he
    rw [filterPart_eq_error_iff.mpr ⟨e, he, rfl⟩] at hparts
    cases hparts
  · intro h
    cases hparts : c.filterPart root o.filter with
    | ok parts => exact ⟨parts, rfl⟩
    | error err =>
      obtain ⟨e, he, -⟩ := filterPart_eq_error_iff.mp hparts
      exact absurd he (h e)

theorem resolveOrder_eq_error_iff {order : SortOrder} :
    c.resolveOrder root order = .error err ↔
      ∃ e, c.resolve root order.property = .error e ∧ err = .sort order.property e := by
  unfold resolveOrder
  cases c.resolve root order.property <;> simp [eq_comm]

theorem resolveOrder_eq_ok_iff {order : SortOrder} {r : ResolvedOrder} :
    c.resolveOrder root order = .ok r ↔
      c.resolve root order.property = .ok r.path ∧ r.direction = order.direction := by
  unfold resolveOrder
  obtain ⟨path, direction⟩ := r
  cases c.resolve root order.property <;> simp [eq_comm]

theorem resolveOrders_eq_error_iff :
    o.sort.mapM (c.resolveOrder root) = .error err ↔
      ∃ property e, SortFails c root o property e ∧ err = .sort property e := by
  have hresolves : ∀ order, (∃ r, c.resolveOrder root order = .ok r) ↔
      ∃ p, c.resolve root order.property = .ok p := by
    intro order
    simp only [resolveOrder_eq_ok_iff]
    exact ⟨fun ⟨r, hr, _⟩ => ⟨r.path, hr⟩, fun ⟨p, hp⟩ => ⟨⟨p, order.direction⟩, hp, rfl⟩⟩
  rw [mapM_eq_error_iff]
  simp only [hresolves, resolveOrder_eq_error_iff]
  constructor
  · rintro ⟨before, order, after, hsort, hbefore, e, he, rfl⟩
    exact ⟨_, e, ⟨before, order, after, hsort, hbefore, rfl, he⟩, rfl⟩
  · rintro ⟨property, e, ⟨before, order, after, hsort, hbefore, rfl, he⟩, rfl⟩
    exact ⟨before, order, after, hsort, hbefore, e, he, rfl⟩

/-! ## The whole search -/

theorem search_eq_error_iff : c.search root o = .error err ↔ Refuses c root o err := by
  unfold search
  rw [bind_eq_error_iff, check_eq_error_iff]
  simp only [bind_eq_error_iff, check_eq_ok_iff, filterPart_eq_error_iff,
    resolveOrders_eq_error_iff]
  constructor
  · rintro ((⟨hnames, rfl⟩ | ⟨hnames, hpage, rfl⟩) | ⟨-, ⟨hnames, hpage⟩, h⟩)
    · exact .unknownPropagation hnames
    · exact .emptyPage hnames hpage
    · rcases h with ⟨e, he, rfl⟩ | ⟨parts, hparts, ⟨property, e, he, rfl⟩ | ⟨sort, -, hsort⟩⟩
      · exact .compile hnames hpage he
      · exact .sort hnames hpage (exists_filterPart_iff.mp ⟨parts, hparts⟩) he
      · cases hsort
  · intro h
    cases h with
    | unknownPropagation hnames => exact .inl (.inl ⟨hnames, rfl⟩)
    | emptyPage hnames hpage => exact .inl (.inr ⟨hnames, hpage, rfl⟩)
    | compile hnames hpage he => exact .inr ⟨(), ⟨hnames, hpage⟩, .inl ⟨_, he, rfl⟩⟩
    | sort hnames hpage hfilter he =>
      obtain ⟨parts, hparts⟩ := exists_filterPart_iff.mpr hfilter
      exact .inr ⟨(), ⟨hnames, hpage⟩, .inr ⟨parts, hparts, .inl ⟨_, _, he, rfl⟩⟩⟩

theorem search_eq_ok {s : CompiledSearch} (h : c.search root o = .ok s) :
    ∃ parts, c.filterPart root o.filter = .ok parts ∧
      s.filter = .all (o.givenKeyword.toList.map (c.traverse root o.propagate) ++ parts) ∧
        o.sort.mapM (c.resolveOrder root) = .ok s.sort ∧ s.page = o.page := by
  unfold search at h
  obtain ⟨-, -, h⟩ := bind_eq_ok_iff.mp h
  obtain ⟨parts, hparts, h⟩ := bind_eq_ok_iff.mp h
  obtain ⟨sort, hsort, h⟩ := bind_eq_ok_iff.mp h
  cases h
  exact ⟨parts, hparts, rfl, hsort, rfl⟩

theorem givenKeyword_eq_some_iff {k : String} :
    o.givenKeyword = some k ↔ o.keyword = some k ∧ trim k ≠ "" := by
  simp [SearchOptions.givenKeyword, Option.filter_eq_some_iff]

theorem givenKeyword_eq_none_iff : o.givenKeyword = none ↔ ∀ k ∈ o.keyword, trim k = "" := by
  simp [SearchOptions.givenKeyword, Option.filter_eq_none_iff]

theorem eval_all (row : Row) (parts : List Expr) :
    (Expr.all parts).eval row = parts.all (Expr.eval row) := by
  unfold Expr.all
  split
  · simp
  · rw [Expr.eval, Expr.evalAll_eq_all]

theorem answers_of_search {s : CompiledSearch} (h : c.search root o = .ok s) :
    Answers c root o s := by
  obtain ⟨parts, hparts, hfilter, hsort, hpage⟩ := search_eq_ok h
  rw [filterPart_eq_ok_iff] at hparts
  refine ⟨fun row => ?_, fun hkeyword f hf => ?_, ?_, hpage⟩
  · rw [hfilter, eval_all, List.all_append, Bool.and_eq_true]
    refine and_congr ?_ ?_
    · simp only [List.all_map, List.all_eq_true, Option.mem_toList, givenKeyword_eq_some_iff,
        Function.comp_apply]
      exact ⟨fun h k hk hnonblank => h k ⟨hk, hnonblank⟩, fun h k hk => h k hk.1 hk.2⟩
    · rcases hparts with ⟨hnone, rfl⟩ | ⟨f, e, hf, he, rfl⟩
      · simp [hnone]
      · simp [hf, he]
  · rw [givenKeyword_eq_none_iff.mpr hkeyword] at hfilter
    rcases hparts with ⟨hnone, -⟩ | ⟨f', e, hf', he, rfl⟩
    · rw [hnone] at hf
      cases hf
    · obtain rfl : f' = f := Option.some.inj (hf'.symm.trans hf)
      rw [hfilter, he]
      rfl
  · exact (mapM_eq_ok_iff.mp hsort).imp fun order r => resolveOrder_eq_ok_iff.mp

theorem exists_sortFails_iff : (∃ property e, SortFails c root o property e) ↔
    ∃ order ∈ o.sort, ∃ e, c.resolve root order.property = .error e := by
  constructor
  · rintro ⟨property, e, before, order, after, hsort, -, rfl, he⟩
    exact ⟨order, by simp [hsort], e, he⟩
  · rintro ⟨order, horder, e, he⟩
    cases hsort : o.sort.mapM (c.resolveOrder root) with
    | error err =>
      obtain ⟨property, e, h, -⟩ := resolveOrders_eq_error_iff.mp hsort
      exact ⟨property, e, h⟩
    | ok rs =>
      obtain ⟨r, hr⟩ := forall_of_mapM_eq_ok hsort order horder
      rw [(resolveOrder_eq_ok_iff.mp hr).1] at he
      cases he

theorem exists_refuses_iff : (∃ err, Refuses c root o err) ↔
    o.Strays c.settings root ∨ o.HasEmptyPage ∨ (∃ e, FilterFails c root o e) ∨
      ∃ order ∈ o.sort, ∃ e, c.resolve root order.property = .error e := by
  rw [← exists_sortFails_iff]
  constructor
  · rintro ⟨err, h⟩
    cases h with
    | unknownPropagation hnames => exact .inl hnames
    | emptyPage _ hpage => exact .inr (.inl hpage)
    | compile _ _ he => exact .inr (.inr (.inl ⟨_, he⟩))
    | sort _ _ _ he => exact .inr (.inr (.inr ⟨_, _, he⟩))
  · intro h
    by_cases hnames : o.Strays c.settings root
    · exact ⟨_, .unknownPropagation hnames⟩
    by_cases hpage : o.HasEmptyPage
    · exact ⟨_, .emptyPage hnames hpage⟩
    by_cases hfilter : ∃ e, FilterFails c root o e
    · obtain ⟨e, he⟩ := hfilter
      exact ⟨_, .compile hnames hpage he⟩
    · obtain ⟨property, e, he⟩ := ((h.resolve_left hnames).resolve_left hpage).resolve_left hfilter
      exact ⟨_, .sort hnames hpage (not_exists.mp hfilter) he⟩

/-- A search is refused for the first thing that is wrong with its names, its page, its filter and
its order, and a search with nothing wrong answers. -/
theorem search_outcome (c : Compiler) (root : Schema) (o : SearchOptions) :
    ((∃ err, c.search root o = .error err) ↔
        o.Strays c.settings root ∨ o.HasEmptyPage ∨ (∃ e, FilterFails c root o e) ∨
          ∃ order ∈ o.sort, ∃ e, c.resolve root order.property = .error e) ∧
      (∀ err, c.search root o = .error err ↔ Refuses c root o err) ∧
        ∀ s, c.search root o = .ok s → Answers c root o s := by
  refine ⟨?_, fun err => search_eq_error_iff, fun s => answers_of_search⟩
  simp only [search_eq_error_iff]
  exact exists_refuses_iff

end Compiler

end RecordFilter
