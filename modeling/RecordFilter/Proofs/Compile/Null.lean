import RecordFilter.Proofs.Coercion.Blank
import RecordFilter.Proofs.Compile.Clauses
import RecordFilter.Proofs.Schema.Built

/-!
# Null in operands

A blank operand is null. Tests for equality and for order never compare with it, but a test for
membership keeps it among its items, where it is equal to nothing.
-/

namespace RecordFilter

/-- Some value of the operand is null. -/
def Check.HoldsNull (check : Check) : Prop := ∃ v ∈ check.operand.values, v.value = .null

def Comparison.AsksMembership (cmp : Comparison) : Prop :=
  Operator.ofSymbol? cmp.operator = some .isIn ∨ Operator.ofSymbol? cmp.operator = some .notIn

def Operand.withoutNulls : Operand → Operand
  | list items => .list (items.filter (!·.value.isNull))
  | operand => operand

theorem Check.eval_withoutNulls (check : Check) (row : Row) :
    eval row ⟨check.path, check.test, check.operand.withoutNulls⟩ = check.eval row := by
  obtain ⟨path, test, operand⟩ := check
  cases operand with
  | list items =>
    have hitems : ∀ actual : Value,
        ((items.filter (!·.value.isNull)).any fun v => actual.equals v.value) =
          items.any fun v => actual.equals v.value := by
      intro actual
      rw [List.any_filter]
      congr 1
      funext v
      cases v.value <;> simp [Value.equals, Value.isNull]
    have hholds : ∀ actual test, holdsFor actual test (Operand.list items).withoutNulls =
        holdsFor actual test (.list items) := by
      intro actual test
      cases test <;> simp [holdsFor, Operand.withoutNulls, hitems]
    simp only [eval, passes, hholds]
  | _ => rfl

theorem Settings.ne_null_of_valueRange {s : Settings} {op : Operator} {v low high : Value}
    (h : s.valueRange op v = some (low, high)) : low ≠ .null ∧ high ≠ .null := by
  cases v with
  | date _ | datetime _ | instant _ =>
    obtain ⟨r, -, heq⟩ := Option.map_eq_some_iff.mp h
    cases heq
    exact ⟨nofun, nofun⟩
  | _ => cases h

namespace Compiler

variable {c : Compiler} {root : Schema} {path : Path}

/-! ## Equality and order -/

theorem not_holdsNull_valueCheck (s : Settings) (negated : Bool) (path : Path) (v : TypedValue) :
    ¬ (valueCheck s negated path v).HoldsNull := by
  unfold valueCheck Check.HoldsNull
  split
  · simp [Operand.values]
  · simp [Operand.values]
  · rename_i hnull _
    simpa [Operand.values] using hnull

theorem not_holdsNull_candidateCheck {negated : Bool} {model : EnumModel} {raw : String}
    {check : Check} (h : candidateCheck negated path model raw = some check) :
    ¬ check.HoldsNull := by
  unfold candidateCheck at h
  split at h
  · cases h
  · cases h
    simp [Check.HoldsNull, Operand.values]

theorem not_holdsNull_lowerEquality (negated : Bool) (raw : String) :
    Yields (c.lowerEquality negated path raw) (¬ ·.HoldsNull) :=
  lowerEquality_yields (fun v _ => not_holdsNull_valueCheck _ _ _ v) fun _ _ _ =>
    not_holdsNull_candidateCheck

theorem not_holdsNull_lowerOrdering (op : Operator) (raw : String) :
    Yields (c.lowerOrdering op path raw) (Expr.Each (¬ ·.HoldsNull)) := by
  refine lowerOrdering_yields (fun v _ hnull => ?_) fun v low high _ _ _ hrange => ?_
  · rintro ⟨w, hw, hvalue⟩
    obtain rfl := List.mem_singleton.mp hw
    rw [hvalue] at hnull
    exact hnull rfl
  · obtain ⟨hlow, hhigh⟩ := Settings.ne_null_of_valueRange hrange
    simp [Check.HoldsNull, Operand.values, hlow, hhigh]

/-! ## Membership -/

section

variable (hc : c.coercer.IsStandard) (hpath : ∀ m, path.terminal ≠ .custom m)

include hc hpath

theorem exists_null_iff {raws : List String} {values : List TypedValue}
    (h : c.coercer.coerceAll path.terminal raws = .ok values) :
    (∃ v ∈ values, v.value = .null) ↔ ∃ raw ∈ raws, IsBlank raw := by
  rw [Coercer.coerceAll, mapM_eq_ok_iff] at h
  induction h with
  | nil => simp
  | cons hv _ ih =>
    rw [List.exists_mem_cons_iff, List.exists_mem_cons_iff, ih, hc.value_eq_null_iff hpath hv]

theorem holdsNull_lowerMembership_iff {op : Operator} {arguments : List String} {check : Check}
    (h : c.lowerMembership op path arguments = .ok check) :
    check.HoldsNull ↔ ∃ raw ∈ arguments, IsBlank raw := by
  obtain ⟨-, values, hvalues, rfl⟩ := lowerMembership_eq_ok_iff.mp h
  exact exists_null_iff hc hpath hvalues

theorem holdsNull_lower_iff {op : Operator} {arguments : List String} {e : Expr}
    (h : c.lower op path arguments = .ok e) :
    (∃ check ∈ e.checks, check.HoldsNull) ↔
      (op = .isIn ∨ op = .notIn) ∧ ∃ raw ∈ arguments, IsBlank raw := by
  have hmember : (c.lowerMembership op path arguments).map .check = .ok e →
      ((∃ check ∈ e.checks, check.HoldsNull) ↔ ∃ raw ∈ arguments, IsBlank raw) := by
    intro h
    obtain ⟨check, hcheck, rfl⟩ := map_eq_ok_iff.mp h
    rw [← holdsNull_lowerMembership_iff hc hpath hcheck]
    simp [Expr.checks]
  have hnone : ¬ (op = .isIn ∨ op = .notIn) → e.Each (¬ ·.HoldsNull) →
      ((∃ check ∈ e.checks, check.HoldsNull) ↔
        (op = .isIn ∨ op = .notIn) ∧ ∃ raw ∈ arguments, IsBlank raw) := by
    rintro hop heach
    refine iff_of_false ?_ fun hboth => hop hboth.1
    rintro ⟨check, hcheck, hnull⟩
    exact heach check hcheck hnull
  unfold lower at h
  cases op with
  | isIn => simpa using hmember h
  | notIn => simpa using hmember h
  | eq | ne =>
    refine hnone (by simp) ?_
    obtain ⟨raw, -, h⟩ := bind_eq_ok_iff.mp h
    obtain ⟨check, hcheck, h⟩ := bind_eq_ok_iff.mp h
    cases h
    exact Expr.each_check.mpr (not_holdsNull_lowerEquality _ raw check hcheck)
  | gt | ge | lt | le =>
    refine hnone (by simp) ?_
    obtain ⟨raw, -, h⟩ := bind_eq_ok_iff.mp h
    exact not_holdsNull_lowerOrdering _ raw e h

end

/-! ## Blank operands -/

/-- What a blank operand comes to for the operators that take one operand. -/
structure AsksForNull (c : Compiler) (root : Schema) (selector raw : String) (path : Path) :
    Prop where
  eq : c.compile root (.test selector .eq [raw]) = .ok (.check ⟨path, .isNull, .none⟩)
  ne : c.compile root (.test selector .ne [raw]) = .ok (.check ⟨path, .isNotNull, .none⟩)
  ordering : ∀ op ∈ [Operator.gt, .ge, .lt, .le], c.compile root (.test selector op [raw]) =
    .error ⟨selector, .coercion (.notApplicable op.symbol path.terminal)⟩

theorem lowerEquality_of_isBlank {raw : String} (h : IsBlank raw) (negated : Bool) :
    c.lowerEquality negated path raw =
      .ok ⟨path, if negated then .isNotNull else .isNull, .none⟩ := by
  rw [lowerEquality, Coercer.coerce_of_isBlank h]
  rfl

theorem lowerOrdering_of_isBlank {raw : String} (h : IsBlank raw) (op : Operator) :
    c.lowerOrdering op path raw = .error (.notApplicable op.symbol path.terminal) := by
  unfold lowerOrdering
  dsimp only
  split
  · rfl
  · rw [Coercer.coerce_of_isBlank h]
    rfl

theorem asksForNull_of_isBlank {selector raw : String}
    (hpath : c.resolve root selector = .ok path) (h : IsBlank raw) :
    AsksForNull c root selector raw path where
  eq := by
    rw [compile_test_eq_ok_iff hpath, lower_eq, lowerEquality_of_isBlank h]
    rfl
  ne := by
    rw [compile_test_eq_ok_iff hpath, lower_ne, lowerEquality_of_isBlank h]
    rfl
  ordering op hop := by
    rw [compile_test hpath, lower_ordering hop, lowerOrdering_of_isBlank h]
    rfl

/-! ## Filters -/

theorem comparisonsHave_null : ComparisonsHave
    (fun check => check.HoldsNull → check.test = .isIn ∨ check.test = .notIn) c root := by
  intro selector path _
  refine ⟨fun negated raw => ?_, fun op raw => ?_, fun op arguments => ?_⟩
  · exact (not_holdsNull_lowerEquality negated raw).mono fun _ hnot h => absurd h hnot
  · exact (not_holdsNull_lowerOrdering op raw).mono fun _ hnot check hmem h =>
      absurd h (hnot check hmem)
  · exact lowerMembership_yields fun _ _ _ _ htest _ => htest

/-- In a compiled filter null is kept among the items of a test for membership, for each blank
argument, and nowhere else. The items that are null make no difference to a row. -/
theorem null_of_compile (hc : c.coercer.IsStandard) (hroot : root.IsBuiltIn) :
    (∀ f e, c.compile root f = .ok e →
      (∀ check ∈ e.checks, check.HoldsNull → check.test = .isIn ∨ check.test = .notIn) ∧
      ((∃ check ∈ e.checks, check.HoldsNull) ↔
        ∃ cmp ∈ f.leaves, cmp.AsksMembership ∧ ∃ raw ∈ cmp.arguments, IsBlank raw) ∧
      ∀ check ∈ e.checks, ∀ row,
        Check.eval row ⟨check.path, check.test, check.operand.withoutNulls⟩ = check.eval row) ∧
    ∀ selector path raw, c.resolve root selector = .ok path → IsBlank raw →
      AsksForNull c root selector raw path := by
  have hleaf : ∀ cmp, Yields (c.compileComparison root cmp) fun e =>
      (∃ check ∈ e.checks, check.HoldsNull) ↔
        cmp.AsksMembership ∧ ∃ raw ∈ cmp.arguments, IsBlank raw := by
    intro cmp e he
    obtain ⟨op, path, hop, hpath, hlower⟩ := compileComparison_eq_ok_iff.mp he
    have hcustom : ∀ m, path.terminal ≠ .custom m := by
      rintro m hm
      have hbuilt : path.terminal.isBuiltIn = true := hroot.terminal _ _ path hpath
      rw [hm] at hbuilt
      cases hbuilt
    rw [holdsNull_lower_iff hc hcustom hlower, Comparison.AsksMembership, hop]
    simp only [Option.some.injEq]
  refine ⟨fun f e h => ⟨each_compile comparisonsHave_null f e h, exists_check_iff hleaf f e h,
    fun check _ row => check.eval_withoutNulls row⟩, ?_⟩
  exact fun _ _ _ => asksForNull_of_isBlank

def pupils : Schema :=
  .mk "Pupil"
    [⟨"age", none, .scalar .u8, .single, .scalar, none⟩,
      ⟨"name", none, .scalar .text, .single, .scalar, none⟩] []

def agePath : Path := ⟨"Pupil", [⟨"age", "age", .scalar⟩], .scalar .u8⟩

theorem built_pupils : Schema.Built pupils :=
  .of_eq rfl (by simp [pupils, Schema.fields])

theorem isBuiltIn_pupils : pupils.IsBuiltIn :=
  .mk (by decide) (by simp [pupils, Schema.fields])

def namelessPupils : Filter :=
  .and [.test "name" .eq [" "], .test "age" .isIn ["7", " "]]

theorem pupils_nameless :
    Coercer.standard.IsStandard ∧ pupils.IsBuiltIn ∧
      compile ⟨{}, .standard⟩ pupils namelessPupils =
        .ok (.and
          [.check ⟨⟨"Pupil", [⟨"name", "name", .scalar⟩], .scalar .text⟩, .isNull, .none⟩,
            .check ⟨agePath, .isIn, .list [⟨.uint 7, .scalar .u8⟩, ⟨.null, .scalar .u8⟩]⟩]) ∧
      (∃ cmp ∈ namelessPupils.leaves, cmp.AsksMembership ∧ ∃ raw ∈ cmp.arguments, IsBlank raw) ∧
      IsBlank " " ∧ AsksForNull ⟨{}, .standard⟩ pupils "age" " " agePath := by
  obtain ⟨hnull, hasks⟩ :=
    null_of_compile (c := ⟨{}, .standard⟩) Coercer.isStandard_standard isBuiltIn_pupils
  refine ⟨Coercer.isStandard_standard, isBuiltIn_pupils, rfl, ?_, by decide,
    hasks "age" agePath " " rfl (by decide)⟩
  refine (hnull namelessPupils _ rfl).2.1.mp ⟨_, List.mem_cons_of_mem _ List.mem_cons_self, ?_⟩
  exact ⟨⟨.null, .scalar .u8⟩, by simp [Operand.values], rfl⟩

theorem pupils_null_listed :
    ¬ ∀ (c : Compiler) (root : Schema) (f : Filter) (e : Expr), c.coercer.IsStandard → root.Built →
      root.IsBuiltIn → c.compile root f = .ok e → ∀ check ∈ e.checks, ¬ check.HoldsNull := by
  intro h
  have hcompile : compile ⟨{}, .standard⟩ pupils (.test "age" .notIn ["7", ""]) = .ok (.check
      ⟨agePath, .notIn, .list [⟨.uint 7, .scalar .u8⟩, ⟨.null, .scalar .u8⟩]⟩) := rfl
  refine h _ pupils _ _ Coercer.isStandard_standard built_pupils isBuiltIn_pupils hcompile _
    (List.mem_singleton_self _) ⟨⟨.null, .scalar .u8⟩, ?_, rfl⟩
  simp [Operand.values]

end Compiler

end RecordFilter
