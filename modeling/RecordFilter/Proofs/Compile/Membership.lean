import Mathlib.Tactic.Choose
import RecordFilter.Proofs.Compile.Negation

/-!
# Membership as repeated equality

A test for membership asks for each of its items what a test for equality asks for one. Where a
path has one value, the negated test asks the negated question for each; where it has several, one
value has to be none of the items, which is more.
-/

namespace RecordFilter

namespace Check

variable {path : Path} {items : List TypedValue} {row : Row}

theorem eval_isIn (path : Path) (items : List TypedValue) (row : Row) :
    eval row ⟨path, .isIn, .list items⟩ =
      items.any fun v => eval row ⟨path, .eq, .value v⟩ := by
  simp only [eval, passes, holdsFor]
  rw [Bool.eq_iff_iff]
  simp only [List.any_eq_true, Bool.and_eq_true]
  constructor
  · rintro ⟨a, ha, hnull, v, hv, heq⟩
    exact ⟨v, hv, a, ha, hnull, heq⟩
  · rintro ⟨v, hv, a, ha, hnull, heq⟩
    exact ⟨a, ha, hnull, v, hv, heq⟩

theorem eval_ne_of_eval_notIn (h : eval row ⟨path, .notIn, .list items⟩ = true) :
    ∀ v ∈ items, eval row ⟨path, .ne, .value v⟩ = true := by
  simp only [eval, passes, holdsFor] at h ⊢
  obtain ⟨a, ha, hpass⟩ := List.any_eq_true.mp h
  intro v hv
  refine List.any_eq_true.mpr ⟨a, ha, ?_⟩
  simp only [Bool.and_eq_true, Bool.not_eq_true', List.any_eq_false, Bool.not_eq_true] at hpass ⊢
  exact ⟨hpass.1, hpass.2 v hv⟩

theorem eval_notIn (hsingle : path.isMany = false) (hitems : items ≠ []) (row : Row) :
    eval row ⟨path, .notIn, .list items⟩ =
      items.all fun v => eval row ⟨path, .ne, .value v⟩ := by
  rw [Bool.eq_iff_iff, List.all_eq_true]
  refine ⟨eval_ne_of_eval_notIn, fun h => ?_⟩
  obtain ⟨first, hfirst⟩ := List.exists_mem_of_ne_nil items hitems
  by_cases hrow : row path.dotted = none ∨ row path.dotted = some .null
  -- The first item is needed here: where there is no value, no test passes.
  · have hnone := h first hfirst
    rw [eval_eq_false hsingle rfl hrow] at hnone
    cases hnone
  · rw [not_or, ← ne_eq, Option.ne_none_iff_exists'] at hrow
    obtain ⟨⟨a, ha⟩, hnull⟩ := hrow
    rw [ha, Option.some.injEq] at hnull
    have hdiffers : ∀ v ∈ items, (!a.equals v.value) = true := by
      intro v hv
      rw [← h v hv, eval_eq_holdsFor hsingle rfl ha hnull]
      rfl
    rw [eval_eq_holdsFor hsingle rfl ha hnull]
    simpa [holdsFor] using hdiffers

end Check

namespace Compiler

variable {c : Compiler} {root : Schema} {selector : String} {path : Path}

theorem lowerEquality_of_not_text (hc : c.coercer.IsStandard)
    (hcustom : ∀ m, path.terminal ≠ .custom m) (htext : path.terminal ≠ .scalar .text)
    {raw : String} (hraw : ¬ IsBlank raw) {v : TypedValue}
    (hv : c.coercer.coerce path.terminal raw = .ok v) (negated : Bool) :
    c.lowerEquality negated path raw =
      .ok ⟨path, if negated then .ne else .eq, .value v⟩ := by
  obtain ⟨hnull, hisText⟩ := hc.proper_coerce hcustom hraw v hv
  rw [lowerEquality_of_coerce hv,
    valueCheck_of_not_text hnull (Bool.eq_false_iff.mpr fun h => htext (hisText h))]

/-- Where a path does not lead to text, a test for membership matches a row when a test for equality
with one of its arguments does. Its negation matches when all negated tests do; where the path can
have several values, it matches only then. -/
theorem membership_of_compile (hc : c.coercer.IsStandard)
    (hpath : c.resolve root selector = .ok path) (hcustom : ∀ m, path.terminal ≠ .custom m)
    (htext : path.terminal ≠ .scalar .text) {arguments : List String}
    (hblank : ∀ raw ∈ arguments, ¬ IsBlank raw) {isIn : Expr}
    (h : c.compile root (.test selector .isIn arguments) = .ok isIn) :
    ∃ (eq ne : String → Expr) (notIn : Expr),
      (∀ raw ∈ arguments, c.compile root (.test selector .eq [raw]) = .ok (eq raw) ∧
        c.compile root (.test selector .ne [raw]) = .ok (ne raw)) ∧
      c.compile root (.test selector .notIn arguments) = .ok notIn ∧
      ∀ row, isIn.eval row = (arguments.any fun raw => (eq raw).eval row) ∧
        (path.isMany = false → notIn.eval row = arguments.all fun raw => (ne raw).eval row) ∧
        (notIn.eval row = true → ∀ raw ∈ arguments, (ne raw).eval row = true) := by
  rw [compile_test_eq_ok_iff hpath, lower_isIn] at h
  obtain ⟨check, hcheck, rfl⟩ := map_eq_ok_iff.mp h
  obtain ⟨hne, values, hvalues, rfl⟩ := lowerMembership_eq_ok_iff.mp hcheck
  have hcoerce := forall_of_mapM_eq_ok hvalues
  have : Nonempty TypedValue := ⟨.null, path.terminal⟩
  choose! value hvalue using hcoerce
  obtain rfl := Except.ok.inj (hvalues.symm.trans (mapM_eq_ok_map hvalue))
  have hlower := fun raw hraw =>
    lowerEquality_of_not_text hc hcustom htext (hblank raw hraw) (hvalue raw hraw)
  refine ⟨fun raw => .check ⟨path, .eq, .value (value raw)⟩,
    fun raw => .check ⟨path, .ne, .value (value raw)⟩,
    .check ⟨path, .notIn, .list (arguments.map value)⟩, fun raw hraw => ⟨?_, ?_⟩, ?_, fun row => ?_⟩
  · rw [compile_test_eq_ok_iff hpath, lower_eq, hlower raw hraw]
    rfl
  · rw [compile_test_eq_ok_iff hpath, lower_ne, hlower raw hraw]
    rfl
  · rw [compile_test_eq_ok_iff hpath, lower_notIn, map_eq_ok_iff]
    exact ⟨_, lowerMembership_eq_ok_iff.mpr ⟨hne, _, hvalues, rfl⟩, rfl⟩
  · refine ⟨?_, fun hsingle => ?_, fun hnotIn raw hraw => ?_⟩
    · exact (Check.eval_isIn path _ row).trans List.any_map
    · exact (Check.eval_notIn hsingle (by simpa using hne) row).trans List.all_map
    · exact Check.eval_ne_of_eval_notIn hnotIn (value raw) (List.mem_map_of_mem hraw)

def classes : Schema :=
  .mk "Class"
    [⟨"room", none, .scalar .u8, .single, .scalar, none⟩,
      ⟨"ages", none, .scalar .u8, .many, .elementCollection, none⟩] []

def roomPath : Path := ⟨"Class", [⟨"room", "room", .scalar⟩], .scalar .u8⟩

def agesPath : Path := ⟨"Class", [⟨"ages", "ages", .elementCollection⟩], .scalar .u8⟩

def sevenOrEight (path : Path) (test : Test) : Expr :=
  .check ⟨path, test, .list [⟨.uint 7, .scalar .u8⟩, ⟨.uint 8, .scalar .u8⟩]⟩

theorem classes_sevenOrEight :
    let c : Compiler := ⟨{}, .standard⟩
    c.coercer.IsStandard ∧ c.resolve classes "ages" = .ok agesPath ∧
      c.resolve classes "room" = .ok roomPath ∧ roomPath.isMany = false ∧
      c.compile classes (.test "ages" .isIn ["7", "8"]) = .ok (sevenOrEight agesPath .isIn) ∧
      c.compile classes (.test "room" .notIn ["7", "8"]) = .ok (sevenOrEight roomPath .notIn) ∧
      (∃ e e', c.compile classes (.test "ages" .eq ["7"]) = .ok e ∧
        c.compile classes (.test "ages" .eq ["8"]) = .ok e' ∧
          ∀ row, (sevenOrEight agesPath .isIn).eval row = (e.eval row || e'.eval row)) ∧
      ∃ e e', c.compile classes (.test "room" .ne ["7"]) = .ok e ∧
        c.compile classes (.test "room" .ne ["8"]) = .ok e' ∧
          ∀ row, (sevenOrEight roomPath .notIn).eval row = (e.eval row && e'.eval row) := by
  intro c
  have hages : c.compile classes (.test "ages" .isIn ["7", "8"]) =
    .ok (sevenOrEight agesPath .isIn) := rfl
  have hroom : c.compile classes (.test "room" .isIn ["7", "8"]) =
    .ok (sevenOrEight roomPath .isIn) := rfl
  have hroomNotIn : c.compile classes (.test "room" .notIn ["7", "8"]) =
    .ok (sevenOrEight roomPath .notIn) := rfl
  obtain ⟨eq, _, _, heq, -, hany⟩ := membership_of_compile Coercer.isStandard_standard
    (show c.resolve classes "ages" = .ok agesPath from rfl) nofun nofun (by decide) hages
  obtain ⟨_, ne, notIn, hne, hnotIn, hall⟩ := membership_of_compile Coercer.isStandard_standard
    (show c.resolve classes "room" = .ok roomPath from rfl) nofun nofun (by decide) hroom
  obtain rfl := Except.ok.inj (hroomNotIn.symm.trans hnotIn)
  refine ⟨Coercer.isStandard_standard, rfl, rfl, rfl, hages, hroomNotIn,
    ⟨eq "7", eq "8", (heq "7" (by simp)).1, (heq "8" (by simp)).1, fun row => ?_⟩,
    ne "7", ne "8", (hne "7" (by simp)).2, (hne "8" (by simp)).2, fun row => ?_⟩
  · rw [(hany row).1]
    simp
  · rw [(hall row).2.1 rfl]
    simp

end Compiler

end RecordFilter
