import Mathlib.Tactic.Choose
import RecordFilter.Compile.Basic
import RecordFilter.Expr.Eval
import RecordFilter.Proofs.Yields

/-!
# The comparisons of a filter

A filter compiles when each of its comparisons does, to an expression of the same shape, and it is
refused for the first comparison that does not.
-/

namespace RecordFilter

namespace Filter

mutual

/-- The filter with an expression in the place of each comparison. -/
def fill (g : Comparison → Expr) : Filter → Expr
  | and parts => .and (fillAll g parts)
  | or parts => .or (fillAll g parts)
  | compare cmp => g cmp

def fillAll (g : Comparison → Expr) : List Filter → List Expr
  | [] => []
  | f :: rest => fill g f :: fillAll g rest

end

mutual

/-- What the filter says when `p` tells which comparisons are true. -/
def holds (p : Comparison → Bool) : Filter → Bool
  | and parts => holdsAll p parts
  | or parts => holdsAny p parts
  | compare cmp => p cmp

def holdsAll (p : Comparison → Bool) : List Filter → Bool
  | [] => true
  | f :: rest => holds p f && holdsAll p rest

def holdsAny (p : Comparison → Bool) : List Filter → Bool
  | [] => false
  | f :: rest => holds p f || holdsAny p rest

end

mutual

theorem eval_fill (g : Comparison → Expr) (row : Row) :
    ∀ f : Filter, (f.fill g).eval row = f.holds fun cmp => (g cmp).eval row
  | .and parts => evalAll_fillAll g row parts
  | .or parts => evalAny_fillAll g row parts
  | .compare _ => rfl

theorem evalAll_fillAll (g : Comparison → Expr) (row : Row) :
    ∀ fs : List Filter, Expr.evalAll row (fillAll g fs) = holdsAll (fun cmp => (g cmp).eval row) fs
  | [] => rfl
  | f :: rest => by
    rw [fillAll, Expr.evalAll, holdsAll, eval_fill g row f, evalAll_fillAll g row rest]

theorem evalAny_fillAll (g : Comparison → Expr) (row : Row) :
    ∀ fs : List Filter, Expr.evalAny row (fillAll g fs) = holdsAny (fun cmp => (g cmp).eval row) fs
  | [] => rfl
  | f :: rest => by
    rw [fillAll, Expr.evalAny, holdsAny, eval_fill g row f, evalAny_fillAll g row rest]

end

end Filter

namespace Compiler

variable {c : Compiler} {root : Schema}

/-! ## Success -/

mutual

theorem compile_eq_ok_fill {g : Comparison → Expr} :
    ∀ f : Filter, (∀ cmp ∈ f.leaves, c.compileComparison root cmp = .ok (g cmp)) →
      c.compile root f = .ok (f.fill g)
  | .and parts, h => by
    rw [compile, compileAll_eq_ok_fillAll parts h]
    rfl
  | .or parts, h => by
    rw [compile, compileAll_eq_ok_fillAll parts h]
    rfl
  | .compare cmp, h => h cmp (List.mem_singleton_self cmp)

theorem compileAll_eq_ok_fillAll {g : Comparison → Expr} :
    ∀ fs : List Filter, (∀ cmp ∈ Filter.leavesOf fs, c.compileComparison root cmp = .ok (g cmp)) →
      c.compileAll root fs = .ok (Filter.fillAll g fs)
  | [], _ => rfl
  | f :: rest, h => by
    rw [Filter.leavesOf, List.forall_mem_append] at h
    rw [compileAll, compile_eq_ok_fill f h.1, compileAll_eq_ok_fillAll rest h.2]
    rfl

end

/-! ## Failure -/

/-- The error is that of the first of the comparisons that does not compile. -/
def FailsFirst (c : Compiler) (root : Schema) (cmps : List Comparison) (err : CompileError) :
    Prop :=
  ∃ before cmp after, cmps = before ++ cmp :: after ∧
    (∀ b ∈ before, ∃ e, c.compileComparison root b = .ok e) ∧
      c.compileComparison root cmp = .error err

theorem FailsFirst.append_left {cmps : List Comparison} {err : CompileError}
    (h : FailsFirst c root cmps err) {ahead : List Comparison}
    (hahead : ∀ b ∈ ahead, ∃ e, c.compileComparison root b = .ok e) :
    FailsFirst c root (ahead ++ cmps) err := by
  obtain ⟨before, cmp, after, rfl, hbefore, hcmp⟩ := h
  refine ⟨ahead ++ before, cmp, after, (List.append_assoc _ _ _).symm, ?_, hcmp⟩
  exact List.forall_mem_append.mpr ⟨hahead, hbefore⟩

theorem FailsFirst.append_right {cmps : List Comparison} {err : CompileError}
    (h : FailsFirst c root cmps err) (behind : List Comparison) :
    FailsFirst c root (cmps ++ behind) err := by
  obtain ⟨before, cmp, after, rfl, hbefore, hcmp⟩ := h
  exact ⟨before, cmp, after ++ behind, by simp, hbefore, hcmp⟩

theorem FailsFirst.not_forall {cmps : List Comparison} {err : CompileError}
    (h : FailsFirst c root cmps err) :
    ¬ ∀ cmp ∈ cmps, ∃ e, c.compileComparison root cmp = .ok e := by
  obtain ⟨before, cmp, after, rfl, -, hcmp⟩ := h
  intro hall
  obtain ⟨e, he⟩ := hall cmp (by simp)
  rw [hcmp] at he
  cases he

theorem FailsFirst.of_cons {cmp : Comparison} {rest : List Comparison} {err : CompileError}
    (h : FailsFirst c root (cmp :: rest) err) :
    c.compileComparison root cmp = .error err ∨
      (∃ e, c.compileComparison root cmp = .ok e) ∧ FailsFirst c root rest err := by
  obtain ⟨before, cmp', after, heq, hbefore, hcmp⟩ := h
  cases before with
  | nil =>
    obtain ⟨rfl, rfl⟩ := List.cons.inj heq
    exact Or.inl hcmp
  | cons b before =>
    obtain ⟨rfl, rfl⟩ := List.cons.inj heq
    obtain ⟨hb, hbefore⟩ := List.forall_mem_cons.mp hbefore
    exact Or.inr ⟨hb, before, cmp', after, rfl, hbefore, hcmp⟩

theorem FailsFirst.unique {cmps : List Comparison} {err err' : CompileError}
    (h : FailsFirst c root cmps err) (h' : FailsFirst c root cmps err') : err = err' := by
  induction cmps with
  | nil => exact absurd (fun _ hmem => nomatch hmem) h.not_forall
  | cons cmp rest ih =>
    rcases h.of_cons with he | ⟨⟨e, he⟩, hrest⟩ <;> rcases h'.of_cons with he' | ⟨⟨e', he'⟩, hrest'⟩
    · rw [he] at he'
      exact Except.error.inj he'
    · rw [he] at he'
      cases he'
    · rw [he] at he'
      cases he'
    · exact ih hrest hrest'

mutual

theorem compile_cases (c : Compiler) (root : Schema) : ∀ f : Filter,
    (∃ e, c.compile root f = .ok e ∧
        ∀ cmp ∈ f.leaves, ∃ e, c.compileComparison root cmp = .ok e) ∨
      ∃ err, c.compile root f = .error err ∧ FailsFirst c root f.leaves err
  | .and parts => by
    rw [compile]
    rcases compileAll_cases c root parts with ⟨es, hes, hall⟩ | ⟨err, herr, hfirst⟩
    · exact Or.inl ⟨.and es, by rw [hes]; rfl, hall⟩
    · exact Or.inr ⟨err, by rw [herr]; rfl, hfirst⟩
  | .or parts => by
    rw [compile]
    rcases compileAll_cases c root parts with ⟨es, hes, hall⟩ | ⟨err, herr, hfirst⟩
    · exact Or.inl ⟨.or es, by rw [hes]; rfl, hall⟩
    · exact Or.inr ⟨err, by rw [herr]; rfl, hfirst⟩
  | .compare cmp => by
    rw [compile, Filter.leaves]
    cases hcmp : c.compileComparison root cmp with
    | ok e => exact Or.inl ⟨e, rfl, List.forall_mem_singleton.mpr ⟨e, hcmp⟩⟩
    | error err => exact Or.inr ⟨err, rfl, [], cmp, [], rfl, by simp, hcmp⟩

theorem compileAll_cases (c : Compiler) (root : Schema) : ∀ fs : List Filter,
    (∃ es, c.compileAll root fs = .ok es ∧
        ∀ cmp ∈ Filter.leavesOf fs, ∃ e, c.compileComparison root cmp = .ok e) ∨
      ∃ err, c.compileAll root fs = .error err ∧ FailsFirst c root (Filter.leavesOf fs) err
  | [] => Or.inl ⟨[], rfl, fun _ h => nomatch h⟩
  | f :: rest => by
    rw [compileAll, Filter.leavesOf]
    rcases compile_cases c root f with ⟨e, he, hf⟩ | ⟨err, herr, hfirst⟩
    -- The error of the rest comes first, since all comparisons of `f` compile.
    · rcases compileAll_cases c root rest with ⟨es, hes, hrest⟩ | ⟨err, herr, hfirst⟩
      · exact Or.inl ⟨e :: es, by rw [he, hes]; rfl, List.forall_mem_append.mpr ⟨hf, hrest⟩⟩
      · exact Or.inr ⟨err, by rw [he, herr]; rfl, hfirst.append_left hf⟩
    · exact Or.inr ⟨err, by rw [herr]; rfl, hfirst.append_right _⟩

end

theorem exists_compile_iff {f : Filter} :
    (∃ e, c.compile root f = .ok e) ↔
      ∀ cmp ∈ f.leaves, ∃ e, c.compileComparison root cmp = .ok e := by
  rcases compile_cases c root f with ⟨e, he, hall⟩ | ⟨err, herr, hfirst⟩
  · exact ⟨fun _ => hall, fun _ => ⟨e, he⟩⟩
  · refine ⟨fun ⟨e, he⟩ => ?_, fun hall => absurd hall hfirst.not_forall⟩
    rw [herr] at he
    cases he

theorem compile_eq_error_iff {f : Filter} {err : CompileError} :
    c.compile root f = .error err ↔ FailsFirst c root f.leaves err := by
  rcases compile_cases c root f with ⟨e, he, hall⟩ | ⟨err', herr, hfirst⟩
  · refine ⟨fun h => ?_, fun h => absurd hall h.not_forall⟩
    rw [he] at h
    cases h
  · rw [herr, Except.error.injEq]
    exact ⟨fun h => h ▸ hfirst, fun h => hfirst.unique h⟩

/-! ## One comparison -/

/-- What is wrong with a comparison: its operator, else its path, else its arguments. -/
inductive Faults (c : Compiler) (root : Schema) (cmp : Comparison) : CompileError → Prop
  | operator (hop : ∀ op : Operator, Operator.ofSymbol? cmp.operator ≠ some op) :
      Faults c root cmp ⟨cmp.selector, .operator cmp.operator⟩
  | path {op : Operator} {e : PathError} (hop : Operator.ofSymbol? cmp.operator = some op)
      (he : root.resolve c.settings.maxDepth cmp.selector = .error e) :
      Faults c root cmp ⟨cmp.selector, .path e⟩
  | coercion {op : Operator} {p : Path} {e : CoercionError}
      (hop : Operator.ofSymbol? cmp.operator = some op)
      (hp : root.resolve c.settings.maxDepth cmp.selector = .ok p)
      (he : c.lower op p cmp.arguments = .error e) : Faults c root cmp ⟨cmp.selector, .coercion e⟩

theorem compileComparison_eq_error_iff {cmp : Comparison} {err : CompileError} :
    c.compileComparison root cmp = .error err ↔ Faults c root cmp err := by
  unfold compileComparison operatorOf
  constructor
  · intro h
    cases hop : Operator.ofSymbol? cmp.operator with
    | none =>
      rw [hop] at h
      cases h
      exact .operator (by simp [hop])
    | some op =>
      rw [hop] at h
      cases hp : c.resolve root cmp.selector with
      | error e =>
        rw [hp] at h
        cases h
        exact .path hop hp
      | ok p =>
        rw [hp] at h
        change (c.lower op p cmp.arguments).mapError (coercionFault cmp) = .error err at h
        cases he : c.lower op p cmp.arguments with
        | error e =>
          rw [he] at h
          cases h
          exact .coercion hop hp he
        | ok e =>
          rw [he] at h
          cases h
  · intro h
    cases h with
    | operator hop =>
      rw [Option.eq_none_iff_forall_ne_some.mpr hop]
      rfl
    | path hop he =>
      rw [hop, resolve, he]
      rfl
    | @coercion op p e hop hp he =>
      rw [hop, resolve, hp]
      change (c.lower op p cmp.arguments).mapError (coercionFault cmp) = _
      rw [he]
      rfl

theorem compile_test {selector : String} {path : Path} (hpath : c.resolve root selector = .ok path)
    (op : Operator) (arguments : List String) :
    c.compile root (.test selector op arguments) =
      (c.lower op path arguments).mapError (coercionFault ⟨selector, op.symbol, arguments⟩) := by
  rw [Filter.test, compile, compileComparison, operatorOf, Operator.ofSymbol?_symbol, hpath]
  rfl

theorem lowerEquality_of_coerce {path : Path} {raw : String} {negated : Bool} {v : TypedValue}
    (h : c.coercer.coerce path.terminal raw = .ok v) :
    c.lowerEquality negated path raw = .ok (valueCheck c.settings negated path v) := by
  rw [lowerEquality, h]

theorem lower_eq {path : Path} {raw : String} :
    c.lower .eq path [raw] = (c.lowerEquality false path raw).map .check := by
  rw [lower]
  cases h : c.lowerEquality false path raw <;> simp [singleArgument, h, bind, Except.bind] <;> rfl

theorem lower_ne {path : Path} {raw : String} :
    c.lower .ne path [raw] = (c.lowerEquality true path raw).map .check := by
  rw [lower]
  cases h : c.lowerEquality true path raw <;> simp [singleArgument, h, bind, Except.bind] <;> rfl

theorem lower_ordering {op : Operator} (hop : op ∈ [Operator.gt, .ge, .lt, .le]) {path : Path}
    {raw : String} : c.lower op path [raw] = c.lowerOrdering op path raw := by
  cases op with
  | gt | ge | lt | le =>
    rw [lower]
    simp [singleArgument, bind, Except.bind]
  | _ => simp at hop

theorem lower_isIn {path : Path} {arguments : List String} :
    c.lower .isIn path arguments = (c.lowerMembership .isIn path arguments).map .check := by
  rw [lower]

theorem lower_notIn {path : Path} {arguments : List String} :
    c.lower .notIn path arguments = (c.lowerMembership .notIn path arguments).map .check := by
  rw [lower]

theorem lowerMembership_eq_ok_iff {op : Operator} {path : Path} {arguments : List String}
    {check : Check} :
    c.lowerMembership op path arguments = .ok check ↔ arguments ≠ [] ∧
      ∃ values, c.coercer.coerceAll path.terminal arguments = .ok values ∧
        ⟨path, if op = .isIn then .isIn else .notIn, .list values⟩ = check := by
  rw [lowerMembership, guard_eq_ok_iff, map_eq_ok_iff, List.isEmpty_iff]

theorem compile_test_eq_ok_iff {selector : String} {path : Path}
    (hpath : c.resolve root selector = .ok path) {op : Operator} {arguments : List String}
    {e : Expr} :
    c.compile root (.test selector op arguments) = .ok e ↔ c.lower op path arguments = .ok e := by
  rw [compile_test hpath, mapError_eq_ok_iff]

theorem compileComparison_eq_ok_iff {cmp : Comparison} {e : Expr} :
    c.compileComparison root cmp = .ok e ↔ ∃ op path,
      Operator.ofSymbol? cmp.operator = some op ∧ c.resolve root cmp.selector = .ok path ∧
        c.lower op path cmp.arguments = .ok e := by
  have hop : ∀ op, operatorOf cmp = .ok op ↔ Operator.ofSymbol? cmp.operator = some op := by
    unfold operatorOf
    cases Operator.ofSymbol? cmp.operator <;> simp
  simp only [compileComparison, bind_eq_ok_iff, mapError_eq_ok_iff, hop, exists_and_left]

/-! ## The theorem -/

/-- A filter compiles exactly when all its comparisons do. It compiles to its own shape over what
they compile to, so that a row matches as the filter says of the comparisons that it matches.
Otherwise the error is that of the first comparison that fails. -/
theorem compile_clauses (c : Compiler) (root : Schema) (f : Filter) :
    ((∃ e, c.compile root f = .ok e) ↔
        ∀ cmp ∈ f.leaves, ∃ e, c.compile root (.compare cmp) = .ok e) ∧
      (∀ e, c.compile root f = .ok e → ∃ g : Comparison → Expr,
        (∀ cmp ∈ f.leaves, c.compile root (.compare cmp) = .ok (g cmp)) ∧ e = f.fill g ∧
          ∀ row, e.eval row = f.holds fun cmp => (g cmp).eval row) ∧
      (∀ err, c.compile root f = .error err ↔ ∃ before cmp after,
        f.leaves = before ++ cmp :: after ∧
          (∀ b ∈ before, ∃ e, c.compile root (.compare b) = .ok e) ∧
            c.compile root (.compare cmp) = .error err) ∧
      ∀ cmp err, c.compile root (.compare cmp) = .error err ↔ Faults c root cmp err := by
  refine ⟨exists_compile_iff, ?_, fun err => compile_eq_error_iff,
    fun cmp err => compileComparison_eq_error_iff⟩
  intro e he
  have hall := exists_compile_iff.mp ⟨e, he⟩
  have : Nonempty Expr := ⟨.never⟩
  choose! g hg using hall
  have hfill := compile_eq_ok_fill f hg
  rw [he] at hfill
  cases hfill
  exact ⟨g, hg, rfl, fun row => Filter.eval_fill g row f⟩

end Compiler

end RecordFilter
