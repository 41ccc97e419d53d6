import RecordFilter.Proofs.Yields
import RecordFilter.Search.Basic

/-!
# The checks of what is compiled

Compiling makes checks in two places: from a comparison and from a keyword on a field. What holds of
the checks made there holds of every check of every expression that a compiler makes.
-/

namespace RecordFilter

namespace Expr

/-- Every check of the expression has the property. -/
def Each (P : Check → Prop) (e : Expr) : Prop := ∀ c ∈ e.checks, P c

variable {P : Check → Prop}

theorem each_check {c : Check} : Each P (check c) ↔ P c := List.forall_mem_singleton

theorem each_and {parts : List Expr} : Each P (and parts) ↔ ∀ e ∈ parts, Each P e := by
  unfold Each
  rw [checks, checksOf_eq_flatMap, List.forall_mem_flatMap]

theorem each_or {parts : List Expr} : Each P (or parts) ↔ ∀ e ∈ parts, Each P e := by
  unfold Each
  rw [checks, checksOf_eq_flatMap, List.forall_mem_flatMap]

theorem each_never : Each P never := fun _ h => nomatch h

theorem each_all {parts : List Expr} (h : ∀ e ∈ parts, Each P e) : Each P (all parts) := by
  unfold all
  split
  · exact h _ (List.mem_singleton_self _)
  · exact each_and.mpr h

end Expr

namespace Compiler

variable {P : Check → Prop} {c : Compiler} {root : Schema}

/-! ## Comparisons -/

section

variable {path : Path} {op : Operator} {raw : String}

theorem lowerEquality_yields {negated : Bool}
    (hvalue : ∀ v, c.coercer.coerce path.terminal raw = .ok v →
      P (valueCheck c.settings negated path v))
    (hcandidates : ∀ model check, path.terminal = .enumeration model →
      candidateCheck negated path model raw = some check → P check) :
    Yields (c.lowerEquality negated path raw) P := by
  unfold lowerEquality
  split
  · rename_i hcoerce
    exact yields_ok (hvalue _ hcoerce)
  · rename_i hmodel
    split
    · rename_i hcandidate
      exact yields_ok (hcandidates _ _ hmodel hcandidate)
    · exact yields_error _
  · exact yields_error _

theorem lowerOrdering_yields
    (hvalue : ∀ v, c.coercer.coerce path.terminal raw = .ok v → ¬ v.value.isNull = true →
      P ⟨path, orderingTest op, .value v⟩)
    (hrange : ∀ v low high, c.coercer.coerce path.terminal raw = .ok v → ¬ v.value.isNull = true →
      path.terminal.isWidened = true → c.settings.valueRange op v.value = some (low, high) →
        P ⟨path, .between, .range ⟨low, path.terminal⟩ ⟨high, path.terminal⟩⟩) :
    Yields (c.lowerOrdering op path raw) (Expr.Each P) := by
  unfold lowerOrdering
  dsimp only
  split
  · exact yields_error _
  · refine (yields_self _).bind fun v hv => ?_
    split
    · exact yields_error _
    · rename_i hnull
      split
      · rename_i hwidened
        split
        · rename_i low high hends
          exact yields_ok (Expr.each_check.mpr (hrange v low high hv hnull hwidened hends))
        · exact yields_ok Expr.each_never
      · exact yields_ok (Expr.each_check.mpr (hvalue v hv hnull))

theorem lowerMembership_yields {arguments : List String}
    (h : ∀ values test, arguments ≠ [] →
      c.coercer.coerceAll path.terminal arguments = .ok values → test = .isIn ∨ test = .notIn →
        P ⟨path, test, .list values⟩) :
    Yields (c.lowerMembership op path arguments) P := by
  unfold lowerMembership
  split
  · exact yields_error _
  · rename_i hempty
    have harguments : arguments ≠ [] := by simpa using hempty
    refine (yields_self _).map fun values hvalues => h values _ harguments hvalues ?_
    split <;> simp

end

/-! ## Filters -/

/-- Each way of lowering a comparison at the path makes checks with the property. -/
structure Lowers (P : Check → Prop) (c : Compiler) (path : Path) : Prop where
  equality : ∀ negated raw, Yields (c.lowerEquality negated path raw) P
  ordering : ∀ op raw, Yields (c.lowerOrdering op path raw) (Expr.Each P)
  membership : ∀ op arguments, Yields (c.lowerMembership op path arguments) P

/-- The property holds of the checks at every path that a selector names. -/
def ComparisonsHave (P : Check → Prop) (c : Compiler) (root : Schema) : Prop :=
  ∀ selector path, c.resolve root selector = .ok path → Lowers P c path

theorem Lowers.each_lower {path : Path} (h : Lowers P c path) (op : Operator)
    (arguments : List String) : Yields (c.lower op path arguments) (Expr.Each P) := by
  have hcheck : ∀ check : Check, P check → (Expr.check check).Each P :=
    fun _ => Expr.each_check.mpr
  unfold lower
  cases op with
  | eq | ne =>
    refine (yields_trivial _).bind fun raw _ => (h.equality _ raw).bind ?_
    exact fun check hP => yields_ok (hcheck check hP)
  | gt | ge | lt | le => exact (yields_trivial _).bind fun raw _ => h.ordering _ raw
  | isIn | notIn => exact (h.membership _ arguments).map hcheck

theorem each_compileComparison (h : ComparisonsHave P c root) (cmp : Comparison) :
    Yields (c.compileComparison root cmp) (Expr.Each P) := by
  unfold compileComparison
  refine (yields_trivial _).bind fun op _ => (yields_self _).mapError.bind fun path hpath => ?_
  exact ((h cmp.selector path hpath).each_lower op cmp.arguments).mapError

mutual

theorem each_compile (h : ComparisonsHave P c root) :
    ∀ f : Filter, Yields (c.compile root f) (Expr.Each P)
  | .and parts => (each_compileAll h parts).map fun _ => Expr.each_and.mpr
  | .or parts => (each_compileAll h parts).map fun _ => Expr.each_or.mpr
  | .compare cmp => each_compileComparison h cmp

theorem each_compileAll (h : ComparisonsHave P c root) :
    ∀ fs : List Filter, Yields (c.compileAll root fs) fun es => ∀ e ∈ es, e.Each P
  | [] => yields_ok fun _ h => nomatch h
  | f :: rest =>
    (each_compile h f).bind fun _ he => (each_compileAll h rest).map fun _ hes =>
      List.forall_mem_cons.mpr ⟨he, hes⟩

end

mutual

theorem exists_check_iff {Q : Comparison → Prop}
    (h : ∀ cmp, Yields (c.compileComparison root cmp) fun e =>
      (∃ check ∈ e.checks, P check) ↔ Q cmp) :
    ∀ f : Filter, Yields (c.compile root f) fun e =>
      (∃ check ∈ e.checks, P check) ↔ ∃ cmp ∈ f.leaves, Q cmp
  | .and parts => (exists_checkOf_iff h parts).map fun _ hes => hes
  | .or parts => (exists_checkOf_iff h parts).map fun _ hes => hes
  | .compare cmp => (h cmp).mono fun e he => by
    rw [he, Filter.leaves]
    simp

theorem exists_checkOf_iff {Q : Comparison → Prop}
    (h : ∀ cmp, Yields (c.compileComparison root cmp) fun e =>
      (∃ check ∈ e.checks, P check) ↔ Q cmp) :
    ∀ fs : List Filter, Yields (c.compileAll root fs) fun es =>
      (∃ check ∈ Expr.checksOf es, P check) ↔ ∃ cmp ∈ Filter.leavesOf fs, Q cmp
  | [] => yields_ok (by simp [Expr.checksOf, Filter.leavesOf])
  | f :: rest =>
    (exists_check_iff h f).bind fun e he => (exists_checkOf_iff h rest).map fun es hes => by
      simp only [Expr.checksOf, Filter.leavesOf, List.mem_append, or_and_right, exists_or, he, hes]

end

/-! ## Keywords -/

/-- The term that each of the targets gives for the keyword has the property. -/
def TermsHave (P : Check → Prop) (coercer : Coercer) (keyword : String) (targets : List Target) :
    Prop :=
  ∀ t ∈ targets, ∀ test operand, t.outcome coercer keyword = .term test operand →
    P ⟨t.path, test, operand⟩

theorem each_searchTargets {coercer : Coercer} {keyword : String} {targets : List Target}
    (h : TermsHave P coercer (Text.trim keyword) targets) :
    (searchTargets coercer keyword targets).Each P := by
  unfold searchTargets
  split
  · exact Expr.each_never
  · refine Expr.each_or.mpr fun e he => ?_
    obtain ⟨t, ht, hterm⟩ := List.mem_filterMap.mp he
    unfold Target.term? at hterm
    split at hterm
    · rename_i houtcome
      cases hterm
      exact Expr.each_check.mpr (h t ht _ _ houtcome)
    · cases hterm
    · cases hterm

/-! ## Searches -/

theorem each_filterPart (h : ComparisonsHave P c root) (f : Option Filter) :
    Yields (c.filterPart root f) fun es => ∀ e ∈ es, e.Each P := by
  cases f with
  | none => exact yields_ok fun _ h => nomatch h
  | some f =>
    exact (each_compile h f).mapError.map fun _ he => List.forall_mem_singleton.mpr he

/-- An expression that comes out of a compiler: for a filter, for a keyword, or for a search. -/
inductive Makes (c : Compiler) (root : Schema) : Expr → Prop
  | filter {f : Filter} {e : Expr} (h : c.compile root f = .ok e) : Makes c root e
  | keyword (propagate : List String) (keyword : String) :
      Makes c root (c.traverse root propagate keyword)
  | search {o : SearchOptions} {s : CompiledSearch} (h : c.search root o = .ok s) :
      Makes c root s.filter

theorem Makes.each {e : Expr} (he : Makes c root e)
    (hcompare : ComparisonsHave P c root)
    (hkeyword : ∀ keyword propagate,
      TermsHave P c.coercer keyword (c.targets root propagate)) : e.Each P := by
  cases he with
  | filter h => exact each_compile hcompare _ _ h
  | keyword propagate keyword => exact each_searchTargets (hkeyword _ propagate)
  | @search o s h =>
    have hyields : Yields (c.search root o) fun s => s.filter.Each P := by
      unfold Compiler.search
      refine (yields_trivial _).bind fun _ _ => (each_filterPart hcompare o.filter).bind ?_
      intro fromFilter hfilter
      refine (yields_trivial _).bind fun sort _ => yields_ok (Expr.each_all ?_)
      refine List.forall_mem_append.mpr ⟨fun e he => ?_, hfilter⟩
      obtain ⟨k, -, rfl⟩ := List.mem_map.mp he
      exact each_searchTargets (hkeyword _ _)
    exact hyields s h

end Compiler

end RecordFilter
