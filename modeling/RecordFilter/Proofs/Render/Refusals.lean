import RecordFilter.Render.Document
import RecordFilter.Render.Sql

/-!
# What the renderers refuse

A check is refused when its operand does not have the shape that its test needs, and an expression
for the first of its checks that is. The clause and the document are refused for the same checks,
as long as the document can write every instant.
-/

namespace RecordFilter

/-! ## Checks that are refused -/

/-- An operand of this shape goes with the test. A test for null does not look at its operand. -/
def Test.takes : Test → Operand → Bool
  | .isNull, _ | .isNotNull, _ => true
  | .eq, .value _ | .ne, .value _ | .gt, .value _ | .ge, .value _ | .lt, .value _ | .le, .value _ =>
    true
  | .isIn, .list _ | .notIn, .list _ => true
  | .like, .pattern _ | .notLike, .pattern _ => true
  | .between, .range _ _ => true
  | _, _ => false

theorem Test.takes_cases {test : Test} {operand : Operand} (h : test.takes operand = true) :
    (test = .isNull ∨ test = .isNotNull) ∨
      (∃ v, operand = .value v ∧ test ∈ [.eq, .ne, .gt, .ge, .lt, .le]) ∨
      (∃ items, operand = .list items ∧ (test = .isIn ∨ test = .notIn)) ∨
      (∃ p, operand = .pattern p ∧ (test = .like ∨ test = .notLike)) ∨
      ∃ low high, operand = .range low high ∧ test = .between := by
  cases test <;> cases operand <;> simp_all [takes]

def Check.refusal? (c : Check) : Option RenderError :=
  if c.test.takes c.operand then none else some c.mismatch

/-- The refusal of the first check that is refused. -/
def firstRefusal? (cs : List Check) : Option RenderError := cs.findSome? Check.refusal?

theorem Check.refusal?_eq_none_iff {c : Check} :
    c.refusal? = none ↔ c.test.takes c.operand = true := by
  simp [refusal?]

theorem Check.refusal?_eq_some_iff {c : Check} {err : RenderError} :
    c.refusal? = some err ↔ c.test.takes c.operand = false ∧ err = c.mismatch := by
  unfold refusal?
  split
  · rename_i h
    simp [h]
  · rename_i h
    simp [h, eq_comm (a := err)]

theorem firstRefusal?_append (cs ds : List Check) :
    firstRefusal? (cs ++ ds) = (firstRefusal? cs).or (firstRefusal? ds) :=
  List.findSome?_append

theorem firstRefusal?_eq_some_iff {cs : List Check} {err : RenderError} :
    firstRefusal? cs = some err ↔ ∃ before c after, cs = before ++ c :: after ∧
      (∀ b ∈ before, b.test.takes b.operand = true) ∧ c.test.takes c.operand = false ∧
        err = c.mismatch := by
  unfold firstRefusal?
  rw [List.findSome?_eq_some_iff]
  simp only [Check.refusal?_eq_none_iff, Check.refusal?_eq_some_iff]
  constructor
  · rintro ⟨before, c, after, hcs, hc, hbefore⟩
    exact ⟨before, c, after, hcs, hbefore, hc⟩
  · rintro ⟨before, c, after, hcs, hbefore, hc⟩
    exact ⟨before, c, after, hcs, hc, hbefore⟩

/-! ## Work that reports a refusal -/

/-- The work fails for the refusal, and succeeds where there is none. -/
inductive Reports {ε α : Type} (embed : RenderError → ε) :
    Except ε α → Option RenderError → Prop
  | fine (a : α) : Reports embed (.ok a) none
  | refused (err : RenderError) : Reports embed (.error (embed err)) (some err)

section Reports

variable {ε α β : Type} {embed : RenderError → ε} {x : Except ε α} {r r' : Option RenderError}

theorem Reports.map (h : Reports embed x r) (g : α → β) : Reports embed (x.map g) r := by
  cases h with
  | fine a => exact .fine (g a)
  | refused err => exact .refused err

theorem Reports.bind {f : α → Except ε β} (h : Reports embed x r)
    (hf : ∀ a, Reports embed (f a) r') : Reports embed (x.bind f) (r.or r') := by
  cases h with
  | fine a => exact hf a
  | refused err => exact .refused err

theorem Reports.eq_error_iff (h : Reports embed x r) {f : ε} :
    x = .error f ↔ ∃ err, r = some err ∧ f = embed err := by
  cases h with
  | fine a => simp
  | refused err => simp [eq_comm]

theorem Reports.of_check {c : Check} (hok : c.test.takes c.operand = true → ∃ a, x = .ok a)
    (herr : c.test.takes c.operand = false → x = .error (embed c.mismatch)) :
    Reports embed x (firstRefusal? [c]) := by
  have hfirst : firstRefusal? [c] = c.refusal? := by simp [firstRefusal?]
  rw [hfirst]
  unfold Check.refusal?
  split
  · rename_i h
    obtain ⟨a, ha⟩ := hok h
    rw [ha]
    exact .fine a
  · rename_i h
    rw [herr (by simpa using h)]
    exact .refused c.mismatch

end Reports

/-! ## The clause -/

namespace Sql

theorem isSome_fragment? (column : String) (c : Check) :
    (fragment? column c).isSome = c.test.takes c.operand := by
  obtain ⟨path, test, operand⟩ := c
  cases test <;> cases operand <;> rfl

theorem reports_checkClause (joins : List Join) (c : Check) :
    Reports id (checkClause joins c) (firstRefusal? [c]) := by
  have hsome := isSome_fragment? (column joins c.path).2 c
  apply Reports.of_check
  · intro h
    rw [h] at hsome
    obtain ⟨f, hf⟩ := Option.isSome_iff_exists.mp hsome
    simp [checkClause, hf]
  · intro h
    rw [h] at hsome
    simp only [Option.isSome_eq_false_iff, Option.isNone_iff_eq_none] at hsome
    simp [checkClause, hsome]

mutual

theorem reports_clause : ∀ (e : Expr) (joins : List Join),
    Reports id (clause joins e) (firstRefusal? e.checks)
  | .and parts, joins | .or parts, joins => by
    rw [clause]
    exact (reports_clauses parts joins).map _
  | .check c, joins => reports_checkClause joins c

theorem reports_clauses : ∀ (es : List Expr) (joins : List Join),
    Reports id (clauses joins es) (firstRefusal? (Expr.checksOf es))
  | [], joins => .fine (joins, [])
  | e :: rest, joins => by
    rw [clauses, Expr.checksOf, firstRefusal?_append]
    apply (reports_clause e joins).bind
    intro first
    exact (reports_clauses rest first.1).map _

end

theorem render_eq_error_iff {e : Expr} {err : RenderError} :
    render e = .error err ↔ firstRefusal? e.checks = some err := by
  have hreports : Reports id (render e) (firstRefusal? e.checks) := (reports_clause e []).map _
  rw [hreports.eq_error_iff]
  simp

end Sql

/-! ## The document -/

namespace Value

mutual

/-- Every instant in the value has a reading in UTC. -/
def hasUtc : Value → Bool
  | .instant t => t.utc?.isSome
  | .list items => allHaveUtc items
  | _ => true

def allHaveUtc : List Value → Bool
  | [] => true
  | v :: rest => hasUtc v && allHaveUtc rest

end

theorem allHaveUtc_iff {vs : List Value} :
    allHaveUtc vs = true ↔ ∀ v ∈ vs, v.hasUtc = true := by
  induction vs with
  | nil => simp [allHaveUtc]
  | cons v rest ih => simp [allHaveUtc, ih]

mutual

theorem isSome_chars? (v : Value) : v.chars?.isSome = v.hasUtc := by
  cases v with
  | list items => simp [chars?, hasUtc, isSome_itemChars? items]
  | instant t => simp [chars?, plainChars?, Calendar.Instant.text?, hasUtc]
  | _ => rfl

theorem isSome_itemChars? : ∀ vs : List Value, (itemChars? vs).isSome = allHaveUtc vs
  | [] => rfl
  | v :: rest => by
    have hv := isSome_chars? v
    have hrest := isSome_itemChars? rest
    rw [itemChars?, allHaveUtc, ← hv, ← hrest]
    cases chars? v <;> simp

end

theorem exists_text? {v : Value} (h : v.hasUtc = true) : ∃ s, v.text? = some s := by
  apply Option.isSome_iff_exists.mp
  rw [text?, Option.isSome_map, isSome_chars?, h]

end Value

/-- Every instant in the operand has a reading in UTC. -/
def Check.HasUtc (c : Check) : Prop := ∀ v ∈ c.operand.values, v.value.hasUtc = true

instance (c : Check) : Decidable c.HasUtc :=
  inferInstanceAs (Decidable (∀ v ∈ c.operand.values, v.value.hasUtc = true))

namespace Document

theorem exists_textOf {v : Value} (h : v.hasUtc = true) : ∃ s, textOf v = .ok s := by
  obtain ⟨s, hs⟩ := Value.exists_text? h
  exact ⟨s, by simp [textOf, hs]⟩

theorem exists_map {ε α β : Type} {x : Except ε α} (h : ∃ a, x = .ok a) (g : α → β) :
    ∃ b, x.map g = .ok b := by
  obtain ⟨a, rfl⟩ := h
  exact ⟨g a, rfl⟩

theorem exists_ofPlain {v : Value} (h : v.hasUtc = true) : ∃ d, ofPlain v = .ok d := by
  have htext : ∀ g : String → Document, ∃ d, (textOf v).map g = .ok d :=
    exists_map (exists_textOf h)
  have hfloat : ∀ x, ∃ d, ofFloat x v = .ok d := by
    intro x
    unfold ofFloat
    split
    · exact ⟨.float x, rfl⟩
    · exact htext _
  unfold ofPlain
  split
  any_goals exact ⟨_, rfl⟩
  any_goals exact hfloat _
  all_goals exact htext _

mutual

theorem exists_ofValue {v : Value} (h : v.hasUtc = true) : ∃ d, ofValue v = .ok d := by
  cases v with
  | list items => exact exists_map (exists_ofValues h) _
  | _ =>
    unfold ofValue
    exact exists_ofPlain h

theorem exists_ofValues : ∀ {vs : List Value}, Value.allHaveUtc vs = true →
    ∃ ds, ofValues vs = .ok ds
  | [], _ => ⟨[], rfl⟩
  | v :: rest, h => by
    rw [Value.allHaveUtc, Bool.and_eq_true] at h
    obtain ⟨d, hd⟩ := exists_ofValue h.1
    rw [ofValues, hd]
    exact exists_map (exists_ofValues h.2) _

end

theorem exists_ofItems {items : List TypedValue} (h : ∀ v ∈ items, v.value.hasUtc = true) :
    ∃ d, ofItems items = .ok d := by
  apply exists_map
  apply exists_ofValues
  simpa [Value.allHaveUtc_iff] using h

theorem exists_condition {c : Check} (hutc : c.HasUtc)
    (htakes : c.test.takes c.operand = true) : ∃ d, condition c = .ok d := by
  obtain ⟨path, test, operand⟩ := c
  unfold Check.HasUtc at hutc
  rcases Test.takes_cases htakes with hnull | ⟨v, rfl, htest⟩ | ⟨items, rfl, htest⟩ |
    ⟨p, rfl, htest⟩ | ⟨low, high, rfl, rfl⟩
  · rcases hnull with rfl | rfl <;> exact ⟨_, rfl⟩
  · have hv := exists_ofValue (hutc v (List.mem_singleton_self v))
    simp only [List.mem_cons, List.not_mem_nil, or_false] at htest
    rcases htest with rfl | rfl | rfl | rfl | rfl | rfl
    · exact hv
    all_goals exact exists_map hv _
  · have hitems := exists_ofItems hutc
    rcases htest with rfl | rfl <;> exact exists_map hitems _
  · rcases htest with rfl | rfl <;> exact ⟨_, rfl⟩
  · obtain ⟨l, hl⟩ := exists_ofValue (hutc low (by simp [Operand.values]))
    obtain ⟨h, hh⟩ := exists_ofValue (hutc high (by simp [Operand.values]))
    refine ⟨object [("$gte", l), ("$lte", h)], ?_⟩
    simp [condition, hl, hh, bind, Except.bind, pure, Except.pure]

theorem condition_eq_error {c : Check} (h : c.test.takes c.operand = false) :
    condition c = .error (.mismatch c.mismatch) := by
  obtain ⟨path, test, operand⟩ := c
  cases test <;> cases operand <;> simp_all [Test.takes, condition, comparisonKey?]

theorem reports_check {c : Check} (h : c.HasUtc) :
    Reports .mismatch (render (.check c)) (firstRefusal? [c]) := by
  apply Reports.of_check
  · intro htakes
    obtain ⟨d, hd⟩ := exists_condition h htakes
    simp [render, hd, Except.map]
  · intro htakes
    simp [render, condition_eq_error htakes, Except.map]

mutual

theorem reports_render : ∀ e : Expr, (∀ c ∈ e.checks, c.HasUtc) →
    Reports .mismatch (render e) (firstRefusal? e.checks)
  | .and parts, h | .or parts, h => by
    rw [render]
    exact (reports_renderAll parts h).map _
  | .check c, h => reports_check (h c (List.mem_singleton_self c))

theorem reports_renderAll : ∀ es : List Expr, (∀ c ∈ Expr.checksOf es, c.HasUtc) →
    Reports .mismatch (renderAll es) (firstRefusal? (Expr.checksOf es))
  | [], _ => .fine []
  | e :: rest, h => by
    rw [Expr.checksOf, List.forall_mem_append] at h
    rw [renderAll, Expr.checksOf, firstRefusal?_append]
    apply (reports_render e h.1).bind
    intro d
    exact (reports_renderAll rest h.2).map _

end

theorem render_eq_error_iff {e : Expr} (h : ∀ c ∈ e.checks, c.HasUtc) {f : Failure} :
    render e = .error f ↔ ∃ err, firstRefusal? e.checks = some err ∧ f = .mismatch err :=
  (reports_render e h).eq_error_iff

end Document

/-! ## Both renderers -/

namespace Expr

/-- The clause of an expression is refused where its document is, and for the same reason: the
first check whose operand does not have the shape that its test needs. -/
theorem refusals_agree {e : Expr} (h : ∀ c ∈ e.checks, c.HasUtc) :
    ((∃ err, Sql.render e = .error err) ↔ ∃ f, Document.render e = .error f) ∧
      (∀ err, Sql.render e = .error err ↔ Document.render e = .error (.mismatch err)) ∧
        ∀ err, Sql.render e = .error err ↔ ∃ before c after, e.checks = before ++ c :: after ∧
          (∀ b ∈ before, b.test.takes b.operand = true) ∧ c.test.takes c.operand = false ∧
            err = ⟨c.path.dotted, c.test, c.operand.label⟩ := by
  have hdocument := @Document.render_eq_error_iff e h
  refine ⟨?_, ?_, ?_⟩
  · constructor
    · rintro ⟨err, herr⟩
      exact ⟨.mismatch err, hdocument.mpr ⟨err, Sql.render_eq_error_iff.mp herr, rfl⟩⟩
    · rintro ⟨f, hf⟩
      obtain ⟨err, herr, -⟩ := hdocument.mp hf
      exact ⟨err, Sql.render_eq_error_iff.mpr herr⟩
  · intro err
    rw [Sql.render_eq_error_iff, hdocument]
    simp
  · intro err
    rw [Sql.render_eq_error_iff]
    exact firstRefusal?_eq_some_iff

/-- Noon two hours ahead of UTC, and noon in UTC. -/
def noons : List Value :=
  let noon : Calendar.DateTime := ⟨⟨2028, 2, 29, by decide⟩, ⟨12, 0, 0, 0, by decide⟩⟩
  [.instant ⟨noon, 7200⟩, .instant (.ofUtc noon)]

/-- A good check on instants, then a range for a membership test, then a list for a pattern. -/
def secondIsRefused : Expr :=
  .and [.check ⟨⟨"Visit", [⟨"at", "at", .scalar⟩], .array (.scalar .instant)⟩, .ne,
      .value ⟨.list noons, .array (.scalar .instant)⟩⟩,
    .or [.check ⟨⟨"Visit", [⟨"room", "room_no", .scalar⟩], .scalar .u8⟩, .isIn,
      .range ⟨.uint 1, .scalar .u8⟩ ⟨.uint 5, .scalar .u8⟩⟩],
    .check ⟨⟨"Visit", [⟨"guest", "guest", .scalar⟩], .scalar .text⟩, .like, .list []⟩]

theorem secondIsRefused_refused : (∀ c ∈ secondIsRefused.checks, c.HasUtc) ∧
    Sql.render secondIsRefused = .error ⟨"room", .isIn, "range"⟩ ∧
      Document.render secondIsRefused = .error (.mismatch ⟨"room", .isIn, "range"⟩) := by
  have hutc : ∀ c ∈ secondIsRefused.checks, c.HasUtc := by decide
  have hsql : Sql.render secondIsRefused = .error ⟨"room", .isIn, "range"⟩ := rfl
  exact ⟨hutc, hsql, ((refusals_agree hutc).2.1 _).mp hsql⟩

end Expr

end RecordFilter
