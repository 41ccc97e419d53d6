import RecordFilter.Proofs.Compile.Checks
import RecordFilter.Proofs.Compile.RangeEnds
import RecordFilter.Proofs.Expr.Pairing

/-!
# Compiled expressions are well paired

Whatever the settings, the coercer and the schema are, each check that compiling makes has an
operand that goes with its test.
-/

namespace RecordFilter

/-! ## Filters -/

def Check.IsPaired (c : Check) : Prop := Paired c.test c.operand

namespace Compiler

variable (c : Compiler) (path : Path)

theorem paired_valueCheck (s : Settings) (negated : Bool) (v : TypedValue) :
    (valueCheck s negated path v).IsPaired := by
  unfold valueCheck
  split
  · cases negated <;> exact .presence (by simp)
  · cases negated <;> exact .pattern (by simp)
  · cases negated <;> exact .comparison (by simp)

theorem paired_candidateCheck {negated : Bool} {model : EnumModel} {raw : String} {check : Check}
    (h : candidateCheck negated path model raw = some check) : check.IsPaired := by
  unfold candidateCheck at h
  split at h
  · cases h
  · rename_i hcandidates
    cases h
    cases negated <;> exact .membership (by simp) (by simpa using hcandidates)

theorem yields_coerceAll {target : FieldType} {raws : List String} (hraws : raws ≠ []) :
    Yields (c.coercer.coerceAll target raws) (· ≠ []) := by
  obtain ⟨raw, rest, rfl⟩ := List.exists_cons_of_ne_nil hraws
  rw [Coercer.coerceAll, List.mapM_cons]
  refine (yields_trivial _).bind fun v _ => (yields_trivial _).bind fun vs _ => ?_
  exact yields_ok (List.cons_ne_nil v vs)

theorem lowers_isPaired : Lowers Check.IsPaired c path where
  equality _ _ :=
    lowerEquality_yields (fun v _ => paired_valueCheck path _ _ v) fun _ _ _ =>
      paired_candidateCheck path
  ordering op _ := by
    refine lowerOrdering_yields (fun v _ _ => .comparison ?_) fun v low high _ _ _ hrange => ?_
    · cases op <;> simp [orderingTest]
    · obtain ⟨o, ho, hle⟩ := (Settings.endsWell_of_valueRange hrange).low_le
      exact .between ho hle
  membership _ _ :=
    lowerMembership_yields fun values _ harguments hvalues htest =>
      .membership htest (yields_coerceAll c harguments values hvalues)

end Compiler

/-! ## Keywords -/

theorem Heuristic.paired_apply {h : Heuristic} {coercer : Coercer} {keyword : String}
    {t : FieldType} {test : Test} {operand : Operand}
    (happly : h.apply coercer keyword t = .term test operand) : Paired test operand := by
  cases h with
  | substring =>
    cases happly
    exact .pattern (by simp)
  | boolLiteral =>
    simp only [apply] at happly
    split at happly
    · cases happly
      exact .comparison (by simp)
    · cases happly
  | enumCandidates =>
    simp only [apply, membership] at happly
    split at happly
    · split at happly
      · cases happly
      · rename_i hcandidates
        cases happly
        exact .membership (by simp) (by simpa using hcandidates)
    · cases happly
  | identifier | year | numeric =>
    simp only [apply, equality] at happly
    split at happly
    · split at happly
      · cases happly
        exact .comparison (by simp)
      · cases happly
    · cases happly

namespace Compiler

theorem Makes.wellPaired {c : Compiler} {root : Schema} {e : Expr} (h : Makes c root e) :
    e.WellPaired :=
  h.each (fun _ path _ => lowers_isPaired c path) fun _ _ _ _ _ _ happly =>
    Heuristic.paired_apply happly

/-- Each check of a compiled expression has an operand that goes with its test. So both renderers
take the expression, and the evaluator finds a case for each value that it meets. -/
theorem wellPaired_of_makes {c : Compiler} {root : Schema} {e : Expr} (h : Makes c root e) :
    (∀ check ∈ e.checks, Paired check.test check.operand) ∧ (∃ q, Sql.render e = .ok q) ∧
      (∀ err, Document.render e ≠ .error (.mismatch err)) ∧
        ∀ row, e.eval? row = some (e.eval row) := by
  have hpaired := h.wellPaired
  refine ⟨hpaired, Sql.exists_render hpaired, ?_, fun row => Expr.eval?_eq_some row e hpaired⟩
  intro err herr
  cases Document.writes_render e hpaired _ herr

def people : Schema :=
  .mk "Person"
    [⟨"name", none, .scalar .text, .single, .scalar, none⟩,
      ⟨"age", none, .scalar .u8, .single, .scalar, none⟩] []

def namedOrAged : Expr :=
  .or [.check ⟨⟨"Person", [⟨"name", "name", .scalar⟩], .scalar .text⟩, .like,
      .pattern (.ofWildcard '*' "An*")⟩,
    .check ⟨⟨"Person", [⟨"age", "age", .scalar⟩], .scalar .u8⟩, .isIn,
      .list [⟨.uint 7, .scalar .u8⟩]⟩]

theorem namedOrAged_readable :
    (∀ check ∈ namedOrAged.checks, Paired check.test check.operand) ∧
      (∃ q, Sql.render namedOrAged = .ok q) ∧
      (∀ err, Document.render namedOrAged ≠ .error (.mismatch err)) ∧
        ∀ row, namedOrAged.eval? row = some (namedOrAged.eval row) :=
  have hcompile : compile ⟨{}, { own := [] }⟩ people
      (.or [.test "name" .eq ["An*"], .test "age" .isIn ["7"]]) = .ok namedOrAged := rfl
  wellPaired_of_makes (.filter hcompile)

end Compiler

end RecordFilter
