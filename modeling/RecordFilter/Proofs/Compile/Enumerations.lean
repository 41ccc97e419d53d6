import Mathlib.Data.List.Infix
import RecordFilter.Proofs.Coercion.Blank
import RecordFilter.Proofs.FreeText.Restatement
import RecordFilter.Proofs.FreeText.Verbatim

/-!
# Operands of enumerations

Equality with a keyword means the first member of exactly this name. Without one it means all the
members that the keyword may mean, and where there is none of these either it is refused. A search
for the keyword always asks for the members that it may mean, also where one has its name.
-/

namespace RecordFilter

open RecordFilter.Text

/-! ## Members -/

/-- The name of the member contains the keyword, case ignored, or its own predicate takes it. -/
def EnumMember.MayBe (m : EnumMember) (keyword : String) : Prop :=
  lower keyword.toList <:+: lower m.name.toList ∨ ∃ p, m.accepts = some p ∧ p keyword = true

theorem EnumMember.isCandidate_iff {m : EnumMember} {keyword : String} :
    m.isCandidate keyword = true ↔ ∃ p, m.accepts = some p ∧ p keyword = true := by
  unfold isCandidate
  cases m.accepts <;> simp

instance (m : EnumMember) (keyword : String) : Decidable (m.MayBe keyword) :=
  @instDecidableOr _ _ _ (decidable_of_iff _ EnumMember.isCandidate_iff)

namespace EnumModel

variable {model : EnumModel} {keyword : String}

/-- The members that the keyword may mean, in the order of declaration. -/
def meant (model : EnumModel) (keyword : String) : List EnumMember :=
  model.members.filter (·.MayBe keyword)

/-- The members as operands. -/
def operands (model : EnumModel) (members : List EnumMember) : List TypedValue :=
  members.map fun m => ⟨.enumMember (model.valueOf m), .enumeration model⟩

theorem candidates_eq_meant (hkeyword : IsKeyword keyword) :
    model.candidates keyword = model.meant keyword := by
  unfold candidates meant
  refine List.filter_congr fun m _ => ?_
  rw [hkeyword.trim_eq, Bool.eq_iff_iff, Bool.or_eq_true, decide_eq_true_iff, nameContains_iff,
    EnumMember.isCandidate_iff]
  rfl

theorem map_candidateValues (hkeyword : IsKeyword keyword) :
    (model.candidateValues keyword).map
        (fun e => TypedValue.mk (.enumMember e) (.enumeration model)) =
      model.operands (model.meant keyword) := by
  rw [candidateValues, candidates_eq_meant hkeyword, List.map_map]
  rfl

theorem candidateValues_eq_nil_iff (hkeyword : IsKeyword keyword) :
    model.candidateValues keyword = [] ↔ model.meant keyword = [] := by
  rw [candidateValues, List.map_eq_nil_iff, candidates_eq_meant hkeyword]

end EnumModel

theorem isKeyword_trim_of_not_isBlank {raw : String} (h : ¬ IsBlank raw) : IsKeyword (trim raw) :=
  isKeyword_trim fun hempty => h (isEmpty_trim_iff.mp (String.isEmpty_iff.mpr hempty))

/-! ## Equality -/

theorem Coercer.IsStandard.convert_member {c : Coercer} (hc : c.IsStandard) {model : EnumModel}
    {before after : List EnumMember} {m : EnumMember}
    (hmembers : model.members = before ++ m :: after)
    (hbefore : ∀ other ∈ before, other.name ≠ m.name) :
    c.convert (.enumeration model) m.name = .ok (.enumMember (model.valueOf m)) := by
  have hroute : c.route (.enumeration model) = some .enumeration := by
    rw [hc.route_eq]
    rfl
  have hfirst : model.member? m.name = some m := by
    rw [EnumModel.member?, List.find?_eq_some_iff_append]
    exact ⟨by simp, before, after, hmembers, by simpa using hbefore⟩
  rw [convert_of_ne_array c (by simp), convertRouted, hroute]
  simp [Strategy.convert, Strategy.read, hfirst, Strategy.orElse, Except.map, Except.mapError]

namespace Compiler

variable {c : Compiler} {root : Schema} {selector raw : String} {path : Path} {model : EnumModel}

/-- Equality with the operand and its negation compile to these checks. -/
def ComparesBy (c : Compiler) (root : Schema) (selector raw : String) (eq ne : Check) : Prop :=
  c.compile root (.test selector .eq [raw]) = .ok (.check eq) ∧
    c.compile root (.test selector .ne [raw]) = .ok (.check ne)

theorem comparesBy_of_lowerEquality (hpath : c.resolve root selector = .ok path)
    {check : Bool → Check} (h : ∀ negated, c.lowerEquality negated path raw = .ok (check negated)) :
    ComparesBy c root selector raw (check false) (check true) := by
  constructor
  · rw [compile_test_eq_ok_iff hpath, lower_eq, h]
    rfl
  · rw [compile_test_eq_ok_iff hpath, lower_ne, h]
    rfl

/-- What equality with the operand means at a path to the enumeration, and what a search for it
does. -/
structure ReadsOperand (c : Compiler) (root : Schema) (selector : String) (path : Path)
    (model : EnumModel) (raw : String) : Prop where
  /-- The first member of the name. -/
  named : ∀ before m after, model.members = before ++ m :: after → m.name = trim raw →
    (∀ other ∈ before, other.name ≠ trim raw) →
      let operand := Operand.value ⟨.enumMember (model.valueOf m), .enumeration model⟩
      ComparesBy c root selector raw ⟨path, .eq, operand⟩ ⟨path, .ne, operand⟩
  /-- All that may be meant. -/
  meant : (∀ m ∈ model.members, m.name ≠ trim raw) → model.meant (trim raw) ≠ [] →
    let operand := Operand.list (model.operands (model.meant (trim raw)))
    ComparesBy c root selector raw ⟨path, .isIn, operand⟩ ⟨path, .notIn, operand⟩
  refused : (∀ m ∈ model.members, m.name ≠ trim raw) → model.meant (trim raw) = [] →
    ∀ op ∈ [Operator.eq, .ne], c.compile root (.test selector op [raw]) =
      .error ⟨selector, .coercion (.invalid (trim raw) (.enumeration model) .noMember)⟩
  /-- At each place with the enumeration the search asks for all that may be meant. -/
  searched : ∀ propagate keyword, trim keyword = trim raw → ∀ t ∈ c.targets root propagate,
    t.path.terminal = .enumeration model →
      ∃ es, c.traverse root propagate keyword = .or es ∧
        ∀ check : Check, check.path = t.path → (.check check ∈ es ↔ model.meant (trim raw) ≠ [] ∧
          check = ⟨t.path, .isIn, .list (model.operands (model.meant (trim raw)))⟩)

section

variable (hc : c.coercer.IsStandard) (hmodel : path.terminal = .enumeration model)
  (hraw : ¬ IsBlank raw)

include hc hmodel hraw

theorem lowerEquality_of_member {before after : List EnumMember} {m : EnumMember}
    (hmembers : model.members = before ++ m :: after) (hm : m.name = trim raw)
    (hbefore : ∀ other ∈ before, other.name ≠ trim raw) (negated : Bool) :
    c.lowerEquality negated path raw = .ok ⟨path, if negated then .ne else .eq,
      .value ⟨.enumMember (model.valueOf m), .enumeration model⟩⟩ := by
  have hcoerce : c.coercer.coerce path.terminal raw =
      .ok ⟨.enumMember (model.valueOf m), .enumeration model⟩ := by
    rw [← hm] at hbefore
    rw [hmodel, Coercer.coerce_of_not_isBlank hraw, ← hm, hc.convert_member hmembers hbefore]
    rfl
  rw [lowerEquality_of_coerce hcoerce]
  rfl

variable (hnone : ∀ m ∈ model.members, m.name ≠ trim raw)

include hnone

theorem coerce_of_no_member : c.coercer.coerce path.terminal raw =
    .error (.invalid (trim raw) (.enumeration model) .noMember) := by
  rw [hmodel, Coercer.coerce_of_not_isBlank hraw, hc.convert_noMember hnone]
  rfl

theorem lowerEquality_of_meant (hmeant : model.meant (trim raw) ≠ []) (negated : Bool) :
    c.lowerEquality negated path raw = .ok ⟨path, if negated then .notIn else .isIn,
      .list (model.operands (model.meant (trim raw)))⟩ := by
  have hkeyword := isKeyword_trim_of_not_isBlank hraw
  have hcheck : candidateCheck negated path model raw = some ⟨path,
      if negated then .notIn else .isIn, .list (model.operands (model.meant (trim raw)))⟩ := by
    rw [← EnumModel.map_candidateValues hkeyword, candidateCheck]
    cases hvalues : model.candidateValues (trim raw) with
    | nil => exact absurd ((EnumModel.candidateValues_eq_nil_iff hkeyword).mp hvalues) hmeant
    | cons e rest => rw [hmodel]
  rw [lowerEquality, coerce_of_no_member hc hmodel hraw hnone, hmodel]
  simp only [hcheck]

theorem lowerEquality_of_not_meant (hmeant : model.meant (trim raw) = []) (negated : Bool) :
    c.lowerEquality negated path raw =
      .error (.invalid (trim raw) (.enumeration model) .noMember) := by
  have hkeyword := isKeyword_trim_of_not_isBlank hraw
  have hcheck : candidateCheck negated path model raw = none := by
    rw [candidateCheck, (EnumModel.candidateValues_eq_nil_iff hkeyword).mpr hmeant]
  rw [lowerEquality, coerce_of_no_member hc hmodel hraw hnone, hmodel]
  simp only [hcheck]

end

/-! ## Searches -/

theorem ofType?_of_mem_targets {propagate : List String} {t : Target}
    (ht : t ∈ c.targets root propagate) :
    Heuristic.ofType? t.path.terminal = some t.heuristic := by
  obtain ⟨d, -, hend⟩ := Chain.exists_endsAt (Schema.endsAt_targetsFrom _ _ _ _ _) ht
  rw [hend.path]
  exact hend.heuristic

theorem path_of_term? {t : Target} {coercer : Coercer} {keyword : String} {check : Check}
    (h : t.term? coercer keyword = some (.check check)) : check.path = t.path := by
  unfold Target.term? at h
  split at h
  · cases h
    rfl
  · cases h
  · cases h

theorem outcome_of_enumeration {t : Target} {coercer : Coercer} {keyword : String}
    (hheuristic : Heuristic.ofType? t.path.terminal = some t.heuristic)
    (hmodel : t.path.terminal = .enumeration model) (hkeyword : IsKeyword keyword) :
    t.outcome coercer keyword =
      if model.meant keyword = [] then .declined
      else .term .isIn (.list (model.operands (model.meant keyword))) := by
  rw [hmodel] at hheuristic
  rw [Target.outcome, ← Option.some.inj hheuristic, hmodel, Heuristic.apply, Heuristic.membership,
    ← EnumModel.map_candidateValues hkeyword]
  cases hvalues : model.candidateValues keyword with
  | nil => rw [if_pos ((EnumModel.candidateValues_eq_nil_iff hkeyword).mp hvalues)]
  | cons e rest =>
    have hmeant : model.meant keyword ≠ [] := fun hnil =>
      List.cons_ne_nil e rest (hvalues.symm.trans
        ((EnumModel.candidateValues_eq_nil_iff hkeyword).mpr hnil))
    rw [if_neg hmeant]

theorem term?_of_enumeration {t : Target} (coercer : Coercer) {keyword : String}
    (hheuristic : Heuristic.ofType? t.path.terminal = some t.heuristic)
    (hmodel : t.path.terminal = .enumeration model) (hkeyword : IsKeyword keyword) (e : Expr) :
    t.term? coercer keyword = some e ↔ model.meant keyword ≠ [] ∧
      e = .check ⟨t.path, .isIn, .list (model.operands (model.meant keyword))⟩ := by
  rw [Target.term?, outcome_of_enumeration hheuristic hmodel hkeyword]
  by_cases hmeant : model.meant keyword = []
  · simp [hmeant]
  · simp [hmeant, eq_comm]

theorem exists_traverse (hraw : ¬ IsBlank raw) {propagate : List String} {keyword : String}
    (hkeyword : trim keyword = trim raw) {t : Target} (ht : t ∈ c.targets root propagate)
    (hmodel : t.path.terminal = .enumeration model) :
    ∃ es, c.traverse root propagate keyword = .or es ∧
      ∀ check : Check, check.path = t.path → (.check check ∈ es ↔ model.meant (trim raw) ≠ [] ∧
        check = ⟨t.path, .isIn, .list (model.operands (model.meant (trim raw)))⟩) := by
  have hblank : ¬ (trim raw).isEmpty = true := isEmpty_trim_iff.not.mpr hraw
  unfold traverse searchTargets
  rw [hkeyword, if_neg hblank]
  refine ⟨_, rfl, fun check hcheck => ?_⟩
  rw [List.mem_filterMap]
  have hterm {t' : Target} (ht' : t' ∈ c.targets root propagate) (hpath : t'.path = t.path) :=
    term?_of_enumeration c.coercer (ofType?_of_mem_targets ht') (hpath ▸ hmodel)
      (isKeyword_trim_of_not_isBlank hraw) (.check check)
  constructor
  · rintro ⟨t', ht', hsome⟩
    have hpath : t'.path = t.path := (path_of_term? hsome).symm.trans hcheck
    obtain ⟨hmeant, heq⟩ := (hterm ht' hpath).mp hsome
    rw [hpath] at heq
    exact ⟨hmeant, Expr.check.inj heq⟩
  · rintro ⟨hmeant, rfl⟩
    exact ⟨t, ht, (hterm ht rfl).mpr ⟨hmeant, rfl⟩⟩

/-! ## The theorem -/

theorem readsOperand_of_enumeration (hc : c.coercer.IsStandard)
    (hpath : c.resolve root selector = .ok path) (hmodel : path.terminal = .enumeration model)
    (hraw : ¬ IsBlank raw) : ReadsOperand c root selector path model raw where
  named _ _ _ hmembers hm hbefore := comparesBy_of_lowerEquality hpath
    (lowerEquality_of_member hc hmodel hraw hmembers hm hbefore)
  meant hnone hmeant := comparesBy_of_lowerEquality hpath
    (lowerEquality_of_meant hc hmodel hraw hnone hmeant)
  refused hnone hmeant op hop := by
    have hlower := lowerEquality_of_not_meant hc hmodel hraw hnone hmeant
    rw [compile_test hpath]
    simp only [List.mem_cons, List.not_mem_nil, or_false] at hop
    rcases hop with rfl | rfl
    · rw [lower_eq, hlower]
      rfl
    · rw [lower_ne, hlower]
      rfl
  searched _ _ hkeyword _ ht hmodel := exists_traverse hraw hkeyword ht hmodel

def highGrade : EnumMember := ⟨"HIGH", 1, none⟩

def grade : EnumModel :=
  ⟨"Grade", [⟨"LOW", 0, none⟩, highGrade, ⟨"HIGHEST", 2, some (· == "best")⟩]⟩

def gradings : Schema :=
  .mk "Grading" [⟨"grade", none, .enumeration grade, .single, .scalar, none⟩] []

def gradePath : Path := ⟨"Grading", [⟨"grade", "grade", .scalar⟩], .enumeration grade⟩

/-- A name that is a part of another one, a part of two names, a word that a member takes, and one
that none does. -/
theorem gradings_read :
    let c : Compiler := ⟨{}, .standard⟩
    let operand := Operand.value ⟨.enumMember (grade.valueOf highGrade), .enumeration grade⟩
    let asked (keyword : String) := Operand.list (grade.operands (grade.meant keyword))
    c.coercer.IsStandard ∧ c.resolve gradings "grade" = .ok gradePath ∧
      ((grade.meant "HIGH").map (·.name) = ["HIGH", "HIGHEST"] ∧
        ComparesBy c gradings "grade" " HIGH " ⟨gradePath, .eq, operand⟩
          ⟨gradePath, .ne, operand⟩ ∧
        ∃ es, c.traverse gradings [] "HIGH" = .or es ∧
          .check ⟨gradePath, .isIn, asked "HIGH"⟩ ∈ es) ∧
      ((grade.meant "best").map (·.name) = ["HIGHEST"] ∧
        ComparesBy c gradings "grade" "best" ⟨gradePath, .isIn, asked "best"⟩
          ⟨gradePath, .notIn, asked "best"⟩) ∧
      c.compile gradings (.test "grade" .ne ["top"]) =
        .error ⟨"grade", .coercion (.invalid "top" (.enumeration grade) .noMember)⟩ := by
  intro c operand asked
  have hc : c.coercer.IsStandard := Coercer.isStandard_standard
  have hpath : c.resolve gradings "grade" = .ok gradePath := rfl
  have hhigh := readsOperand_of_enumeration hc hpath rfl (show ¬ IsBlank " HIGH " by decide)
  have hbest := readsOperand_of_enumeration hc hpath rfl (show ¬ IsBlank "best" by decide)
  have htop := readsOperand_of_enumeration hc hpath rfl (show ¬ IsBlank "top" by decide)
  have htrim : trim " HIGH " = "HIGH" := by decide +kernel
  have htrimBest : trim "best" = "best" := by decide +kernel
  have htrimTop : trim "top" = "top" := by decide +kernel
  have hmeant : (grade.meant "HIGH").map (·.name) = ["HIGH", "HIGHEST"] := by decide +kernel
  have hmeantBest : (grade.meant "best").map (·.name) = ["HIGHEST"] := by decide +kernel
  have hmeantTop : (grade.meant "top").map (·.name) = [] := by decide +kernel
  refine ⟨hc, hpath, ⟨hmeant, ?_, ?_⟩, ⟨hmeantBest, ?_⟩, ?_⟩
  · exact hhigh.named [⟨"LOW", 0, none⟩] highGrade _ rfl htrim.symm (by rw [htrim]; decide)
  · obtain ⟨es, hes, hall⟩ := hhigh.searched [] "HIGH" (by decide +kernel)
      ⟨gradePath, .enumCandidates⟩ (List.mem_singleton_self _) rfl
    rw [htrim] at hall
    refine ⟨es, hes, (hall _ rfl).mpr ⟨fun hnil => ?_, rfl⟩⟩
    rw [hnil] at hmeant
    cases hmeant
  · have h := hbest.meant
    rw [htrimBest] at h
    refine h (by decide) fun hnil => ?_
    rw [hnil] at hmeantBest
    cases hmeantBest
  · have h := htop.refused
    rw [htrimTop] at h
    exact h (by decide) (List.map_eq_nil_iff.mp hmeantTop) .ne (by simp)

end Compiler

end RecordFilter
