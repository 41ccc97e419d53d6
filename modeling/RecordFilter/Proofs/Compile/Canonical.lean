import RecordFilter.Proofs.Compile.Clauses
import RecordFilter.Proofs.Schema.Canonical

/-!
# Filters over canonical selectors

Compiling a filter uses its selectors only for their paths. So each selector can be replaced by the
dotted names of its path: the expression stays the same, and so does what is wrong with a filter
that does not compile.
-/

namespace RecordFilter

namespace Filter

mutual

/-- The filter with another selector in the place of each. -/
def mapSelectors (g : String → String) : Filter → Filter
  | and parts => .and (mapSelectorsOf g parts)
  | or parts => .or (mapSelectorsOf g parts)
  | compare cmp => .compare { cmp with selector := g cmp.selector }

def mapSelectorsOf (g : String → String) : List Filter → List Filter
  | [] => []
  | f :: rest => mapSelectors g f :: mapSelectorsOf g rest

end

end Filter

namespace Compiler

variable {c : Compiler} {root : Schema}

/-- The dotted names of the path of a selector. A selector without a path is left as it is. -/
def canonical (c : Compiler) (root : Schema) (selector : String) : String :=
  match c.resolve root selector with
  | .ok path => path.dotted
  | .error _ => selector

theorem resolve_canonical (hs : Schema.Built root) (c : Compiler) (selector : String) :
    c.resolve root (c.canonical root selector) = c.resolve root selector := by
  unfold canonical
  cases h : c.resolve root selector with
  | ok path => exact Schema.resolve_path hs h
  | error e => exact h

/-! ## What comes of a filter -/

/-- What is wrong with a filter, without the selector that is named for it. -/
def outcome {α : Type} (x : Except CompileError α) : Except ComparisonFault α :=
  x.mapError (·.fault)

variable {α β : Type}

theorem outcome_map (x : Except CompileError α) (f : α → β) :
    outcome (x.map f) = (outcome x).map f := by
  cases x with
  | ok a => rfl
  | error e => rfl

theorem outcome_bind (x : Except CompileError α) (f : α → Except CompileError β) :
    outcome (x.bind f) = (outcome x).bind fun a => outcome (f a) := by
  cases x with
  | ok a => rfl
  | error e => rfl

theorem outcome_eq_ok_iff {x : Except CompileError α} {a : α} : outcome x = .ok a ↔ x = .ok a := by
  cases x with
  | ok b => simp only [outcome, Except.mapError, Except.ok.injEq]
  | error e => exact ⟨nofun, nofun⟩

theorem outcome_compileComparison (hs : Schema.Built root) (c : Compiler) (cmp : Comparison) :
    outcome (c.compileComparison root
        { cmp with selector := c.canonical root cmp.selector }) =
      outcome (c.compileComparison root cmp) := by
  unfold compileComparison operatorOf
  dsimp only
  rw [resolve_canonical hs]
  cases Operator.ofSymbol? cmp.operator with
  | none => rfl
  | some op =>
    cases c.resolve root cmp.selector with
    | error e => rfl
    | ok path =>
      simp only [Except.mapError, bind, Except.bind]
      cases c.lower op path cmp.arguments with
      | error e => rfl
      | ok e => rfl

mutual

theorem outcome_compile (hs : Schema.Built root) (c : Compiler) : ∀ f : Filter,
    outcome (c.compile root (f.mapSelectors (c.canonical root))) = outcome (c.compile root f)
  | .and parts | .or parts => by
    rw [Filter.mapSelectors, compile, compile, outcome_map, outcome_map,
      outcome_compileAll hs c parts]
  | .compare cmp => outcome_compileComparison hs c cmp

theorem outcome_compileAll (hs : Schema.Built root) (c : Compiler) : ∀ fs : List Filter,
    outcome (c.compileAll root (Filter.mapSelectorsOf (c.canonical root) fs)) =
      outcome (c.compileAll root fs)
  | [] => rfl
  | f :: rest => by
    rw [Filter.mapSelectorsOf, compileAll, compileAll, outcome_bind, outcome_bind,
      outcome_compile hs c f]
    simp only [outcome_map, outcome_compileAll hs c rest]

end

/-! ## The theorem -/

/-- The dotted names of a resolved path resolve to the path, and a filter that names its paths in
this way comes to the same as before. -/
theorem compile_canonical (hs : Schema.Built root) :
    (∀ max selector path, root.resolve max selector = .ok path →
        root.resolve max path.dotted = .ok path) ∧
      ∀ (c : Compiler) (f : Filter),
        (∀ e, c.compile root (f.mapSelectors (c.canonical root)) = .ok e ↔
          c.compile root f = .ok e) ∧
        outcome (c.compile root (f.mapSelectors (c.canonical root))) =
          outcome (c.compile root f) := by
  refine ⟨fun max selector path h => Schema.resolve_path hs h, fun c f => ⟨fun e => ?_, ?_⟩⟩
  · rw [← outcome_eq_ok_iff, outcome_compile hs c f, outcome_eq_ok_iff]
  · exact outcome_compile hs c f

/-- The path that orders know as `buyer`. -/
def buyerPath : Path :=
  ⟨"Order", [⟨"customer", "customer_id", .association .single⟩, ⟨"name", "name", .scalar⟩],
    .scalar .text⟩

theorem buyer_canonical :
    Schema.Built Schema.orders ∧ Schema.orders.resolve 3 "buyer" = .ok buyerPath ∧
      Schema.orders.resolve 3 "customer.name" = .ok buyerPath ∧
      ∀ e, (⟨{}, .standard⟩ : Compiler).compile Schema.orders
            (.test "customer.name" .eq ["Ann"]) = .ok e ↔
          (⟨{}, .standard⟩ : Compiler).compile Schema.orders
            (.test "buyer" .eq ["Ann"]) = .ok e := by
  obtain ⟨hpath, hfilter⟩ := compile_canonical Schema.built_orders
  have hbuyer : Schema.orders.resolve 3 "buyer" = .ok buyerPath := by rfl
  exact ⟨Schema.built_orders, hbuyer, hpath 3 "buyer" buyerPath hbuyer,
    (hfilter ⟨{}, .standard⟩ (.test "buyer" .eq ["Ann"])).1⟩

end Compiler

end RecordFilter
