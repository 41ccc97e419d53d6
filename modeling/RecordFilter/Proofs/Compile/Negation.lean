import RecordFilter.Proofs.Compile.Null
import RecordFilter.Proofs.Expr.Opposed

/-!
# Negated comparisons

An operator and its negation compile together, to tests that are opposed: where a path has one
value, one of the two matches, and neither does where it has none. A blank operand asks for null,
and then one of the two matches every row.
-/

namespace RecordFilter

namespace Compiler

variable {c : Compiler} {root : Schema} {path : Path} {raw : String}

/-! ## Equality -/

theorem lowerEquality_of_error {e : CoercionError}
    (h : c.coercer.coerce path.terminal raw = .error e) :
    (∀ negated, c.lowerEquality negated path raw = .error e) ∨
      ∃ items, ∀ negated, c.lowerEquality negated path raw =
        .ok ⟨path, if negated then .notIn else .isIn, .list items⟩ := by
  cases hterminal : path.terminal with
  | enumeration model =>
    rw [hterminal] at h
    cases hcandidates : model.candidateValues (Text.trim raw) with
    | nil =>
      refine .inl fun negated => ?_
      simp only [lowerEquality, hterminal, h, candidateCheck, hcandidates]
    | cons e rest =>
      refine .inr ⟨(e :: rest).map fun e => ⟨.enumMember e, .enumeration model⟩, fun negated => ?_⟩
      simp only [lowerEquality, hterminal, h, candidateCheck, hcandidates]
  | _ =>
    refine .inl fun negated => ?_
    rw [lowerEquality, h, hterminal]

/-- The value is text if the path leads to text. -/
def Asked (path : Path) (v : Value) : Prop := path.terminal = .scalar .text → v.isText = true

section

variable (hsingle : path.isMany = false)

include hsingle

theorem opposed_valueCheck {s : Settings} {v : TypedValue} (hv : path.terminal.Proper v.value) :
    Opposed path (Asked path) (.check (valueCheck s false path v))
      (.check (valueCheck s true path v)) := by
  cases htext : v.value.isText with
  | false =>
    rw [valueCheck_of_not_text hv.1 htext, valueCheck_of_not_text hv.1 htext]
    exact Check.opposed_value hsingle v
  | true =>
    have hasked : ∀ w, Asked path w → w.isText = true := fun w hw => hw (hv.2 htext)
    unfold valueCheck
    cases hvalue : v.value with
    | text t => exact Check.opposed_pattern hsingle hasked _
    | _ =>
      rw [hvalue] at htext
      cases htext

variable (hc : c.coercer.IsStandard) (hcustom : ∀ m, path.terminal ≠ .custom m)

include hc hcustom

theorem lowerEquality_cases (hraw : ¬ IsBlank raw) :
    (∃ e, ∀ negated, c.lowerEquality negated path raw = .error e) ∨
      ∃ check : Bool → Check, (∀ negated, c.lowerEquality negated path raw = .ok (check negated)) ∧
        Opposed path (Asked path) (.check (check false)) (.check (check true)) := by
  cases hcoerce : c.coercer.coerce path.terminal raw with
  | ok v =>
    refine .inr ⟨_, fun negated => lowerEquality_of_coerce hcoerce, ?_⟩
    exact opposed_valueCheck hsingle (hc.proper_coerce hcustom hraw v hcoerce)
  | error e =>
    obtain h | ⟨items, h⟩ := lowerEquality_of_error hcoerce
    · exact .inl ⟨e, h⟩
    · exact .inr ⟨_, h, Check.opposed_list hsingle items⟩

end

/-! ## Filters -/

/-- Both filters compile or neither does, and what they compile to is related. -/
def Together (c : Compiler) (root : Schema) (f f' : Filter) (R : Expr → Expr → Prop) : Prop :=
  ((∃ e, c.compile root f = .ok e) ↔ ∃ e', c.compile root f' = .ok e') ∧
    ∀ e e', c.compile root f = .ok e → c.compile root f' = .ok e' → R e e'

/-- What the operators for equality and for membership come to with their negations at a path. -/
structure Negates (c : Compiler) (root : Schema) (selector : String) (path : Path) : Prop where
  blank : ∀ raw, IsBlank raw →
    Together c root (.test selector .eq [raw]) (.test selector .ne [raw]) fun e e' =>
      ∀ row, e.eval row = !e'.eval row
  equality : ∀ raw, ¬ IsBlank raw →
    Together c root (.test selector .eq [raw]) (.test selector .ne [raw])
      (Opposed path (Asked path))
  membership : ∀ arguments,
    Together c root (.test selector .isIn arguments) (.test selector .notIn arguments)
      (Opposed path fun _ => True)

section

variable {selector : String} (hpath : c.resolve root selector = .ok path)

include hpath

theorem together_of_lower {op op' : Operator} {arguments : List String} {R : Expr → Expr → Prop}
    (h : (∃ err err', c.lower op path arguments = .error err ∧
        c.lower op' path arguments = .error err') ∨
      ∃ e e', c.lower op path arguments = .ok e ∧ c.lower op' path arguments = .ok e' ∧ R e e') :
    Together c root (.test selector op arguments) (.test selector op' arguments) R := by
  simp only [Together, compile_test_eq_ok_iff hpath]
  obtain ⟨err, err', h, h'⟩ | ⟨e, e', h, h', hR⟩ := h
  · rw [h, h']
    exact ⟨iff_of_false nofun nofun, nofun⟩
  · rw [h, h']
    refine ⟨iff_of_true ⟨e, rfl⟩ ⟨e', rfl⟩, fun d d' hd hd' => ?_⟩
    cases hd
    cases hd'
    exact hR

theorem together_blank (hraw : IsBlank raw) :
    Together c root (.test selector .eq [raw]) (.test selector .ne [raw]) fun e e' =>
      ∀ row, e.eval row = !e'.eval row := by
  refine together_of_lower hpath (.inr ?_)
  rw [lower_eq, lower_ne, lowerEquality_of_isBlank hraw, lowerEquality_of_isBlank hraw]
  exact ⟨_, _, rfl, rfl, fun row => (Bool.not_not _).symm⟩

variable (hsingle : path.isMany = false)

include hsingle

theorem together_equality (hc : c.coercer.IsStandard) (hcustom : ∀ m, path.terminal ≠ .custom m)
    (hraw : ¬ IsBlank raw) :
    Together c root (.test selector .eq [raw]) (.test selector .ne [raw])
      (Opposed path (Asked path)) := by
  refine together_of_lower hpath ?_
  rw [lower_eq, lower_ne]
  obtain ⟨e, h⟩ | ⟨check, h, hopposed⟩ := lowerEquality_cases hsingle hc hcustom hraw
  · rw [h, h]
    exact .inl ⟨e, e, rfl, rfl⟩
  · rw [h, h]
    exact .inr ⟨_, _, rfl, rfl, hopposed⟩

theorem together_membership (arguments : List String) :
    Together c root (.test selector .isIn arguments) (.test selector .notIn arguments)
      (Opposed path fun _ => True) := by
  refine together_of_lower hpath ?_
  rw [lower_isIn, lower_notIn, lowerMembership, lowerMembership]
  split
  · exact .inl ⟨_, _, rfl, rfl⟩
  · cases c.coercer.coerceAll path.terminal arguments with
    | error e => exact .inl ⟨e, e, rfl, rfl⟩
    | ok values => exact .inr ⟨_, _, rfl, rfl, Check.opposed_list hsingle values⟩

end

theorem negates_of_resolve (hc : c.coercer.IsStandard) {selector : String}
    (hpath : c.resolve root selector = .ok path) (hsingle : path.isMany = false)
    (hcustom : ∀ m, path.terminal ≠ .custom m) : Negates c root selector path where
  blank _ hraw := together_blank hpath hraw
  equality _ hraw := together_equality hpath hsingle hc hcustom hraw
  membership := together_membership hpath hsingle

/-- At a path with one value an operator and its negation are opposed. At any path what passes a
test, other than that for null, has a value. -/
theorem negates_and_present :
    (∀ (c : Compiler) (root : Schema) (selector : String) (path : Path), c.coercer.IsStandard →
      c.resolve root selector = .ok path → path.isMany = false →
        (∀ m, path.terminal ≠ .custom m) → Negates c root selector path) ∧
      ∀ (row : Row) (check : Check) (operand : Operand), check.test ≠ .isNull →
        check.eval row = true → Check.eval row ⟨check.path, .isNotNull, operand⟩ = true :=
  ⟨fun _ _ _ _ hc hpath hsingle hcustom => negates_of_resolve hc hpath hsingle hcustom,
    fun _ _ operand hnull h => Check.eval_isNotNull_of_eval hnull h operand⟩

def isSeven : Check := ⟨agePath, .eq, .value ⟨.uint 7, .scalar .u8⟩⟩

def isNotSeven : Check := ⟨agePath, .ne, .value ⟨.uint 7, .scalar .u8⟩⟩

theorem pupils_opposed :
    Coercer.standard.IsStandard ∧ resolve ⟨{}, .standard⟩ pupils "age" = .ok agePath ∧
      agePath.isMany = false ∧ (∀ m, agePath.terminal ≠ .custom m) ∧
      compile ⟨{}, .standard⟩ pupils (.test "age" .eq ["7"]) = .ok (.check isSeven) ∧
      compile ⟨{}, .standard⟩ pupils (.test "age" .ne ["7"]) = .ok (.check isNotSeven) ∧
      (∀ (row : Row) v, row "age" = some v → v ≠ .null → isSeven.eval row = !isNotSeven.eval row) ∧
      isNotSeven.eval (fun _ => some (.uint 8)) = true ∧
      Check.eval (fun _ => some (.uint 8)) ⟨agePath, .isNotNull, .none⟩ = true := by
  obtain ⟨hnegates, hpresent⟩ := negates_and_present
  have hage :=
    hnegates ⟨{}, .standard⟩ pupils "age" agePath Coercer.isStandard_standard rfl rfl nofun
  have hseven := (hage.equality "7" (by decide)).2 (.check isSeven) (.check isNotSeven) rfl rfl
  refine ⟨Coercer.isStandard_standard, rfl, rfl, nofun, rfl, rfl, fun row v hrow hv => ?_, rfl, ?_⟩
  · exact hseven.present row v hrow hv nofun
  · exact hpresent _ isNotSeven .none nofun rfl

end Compiler

end RecordFilter
