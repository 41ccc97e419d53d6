import RecordFilter.Render.Sql

/-!
# Clauses without operands

No operand gets into the text of a clause. Expressions that differ in nothing but the values and
patterns of their operands have the same clause and the same joins, or are refused alike.
-/

namespace RecordFilter

/-! ## Expressions of one shape -/

/-- Operands of one kind, whatever values are in them. Lists have the same length. -/
inductive Operand.SameShape : Operand → Operand → Prop
  | none : SameShape .none .none
  | value (v w : TypedValue) : SameShape (.value v) (.value w)
  | range (low high low' high' : TypedValue) : SameShape (.range low high) (.range low' high')
  | list {vs ws : List TypedValue} (h : vs.length = ws.length) : SameShape (.list vs) (.list ws)
  | pattern (p q : Text.Pattern) : SameShape (.pattern p) (.pattern q)

/-- The same test at the end of the same way, against operands of one kind. -/
structure Check.SameShape (c d : Check) : Prop where
  way : c.path.segments = d.path.segments
  test : c.test = d.test
  operand : c.operand.SameShape d.operand

namespace Expr

mutual

/-- Expressions that differ in the values and patterns of their operands only. -/
inductive SameShape : Expr → Expr → Prop
  | and {es fs : List Expr} (h : SameShapes es fs) : SameShape (.and es) (.and fs)
  | or {es fs : List Expr} (h : SameShapes es fs) : SameShape (.or es) (.or fs)
  | check {c d : Check} (h : c.SameShape d) : SameShape (.check c) (.check d)

inductive SameShapes : List Expr → List Expr → Prop
  | nil : SameShapes [] []
  | cons {e f : Expr} {es fs : List Expr} (h : SameShape e f) (hrest : SameShapes es fs) :
      SameShapes (e :: es) (f :: fs)

end

end Expr

namespace Sql

/-! ## Work that runs alike -/

/-- Both fail with one error, or both succeed with related results. -/
inductive Alike {ε α : Type} (R : α → α → Prop) : Except ε α → Except ε α → Prop
  | refused (e : ε) : Alike R (.error e) (.error e)
  | fine {a b : α} (h : R a b) : Alike R (.ok a) (.ok b)

section Alike

variable {ε α β : Type} {R : α → α → Prop} {S : β → β → Prop} {x y : Except ε α}

theorem Alike.map {g g' : α → β} (h : Alike R x y) (hg : ∀ a b, R a b → S (g a) (g' b)) :
    Alike S (x.map g) (y.map g') := by
  cases h with
  | refused e => exact .refused e
  | fine hab => exact .fine (hg _ _ hab)

theorem Alike.bind {f g : α → Except ε β} (h : Alike R x y)
    (hfg : ∀ a b, R a b → Alike S (f a) (g b)) : Alike S (x.bind f) (y.bind g) := by
  cases h with
  | refused e => exact .refused e
  | fine hab => exact hfg _ _ hab

theorem Alike.error_or_ok (h : Alike R x y) :
    (∃ e, x = .error e ∧ y = .error e) ∨ ∃ a b, x = .ok a ∧ y = .ok b ∧ R a b := by
  cases h with
  | refused e => exact Or.inl ⟨e, rfl, rfl⟩
  | fine hab => exact Or.inr ⟨_, _, rfl, rfl, hab⟩

end Alike

/-! ## What is left of a clause without its values -/

/-- The text of a piece and the number of its values. -/
def Fragment.outline (f : Fragment) : String × Nat := (f.text, f.params.length)

variable {c d : Check}

theorem column_eq_of_way {p q : Path} (h : p.segments = q.segments) (joins : List Join) :
    column joins p = column joins q := by
  unfold column
  rw [h]

theorem mismatch_eq_of_sameShape (h : c.SameShape d) : c.mismatch = d.mismatch := by
  have hdotted : c.path.dotted = d.path.dotted := by
    unfold Path.dotted
    rw [h.way]
  have hlabel : c.operand.label = d.operand.label := by
    have hoperand := h.operand
    generalize c.operand = a, d.operand = b at hoperand
    cases hoperand <;> rfl
  unfold Check.mismatch
  rw [hdotted, h.test, hlabel]

theorem outline_membership {vs ws : List TypedValue} (h : vs.length = ws.length)
    (column : String) (negated : Bool) :
    (membership column negated vs).outline = (membership column negated ws).outline := by
  have hempty : vs.isEmpty = ws.isEmpty := by
    rw [Bool.eq_iff_iff, List.isEmpty_iff_length_eq_zero, List.isEmpty_iff_length_eq_zero, h]
  unfold membership
  rw [hempty, h]
  split
  · rfl
  · simp [Fragment.outline, h]

theorem outline_fragment? (h : c.SameShape d) (column : String) :
    (fragment? column c).map Fragment.outline = (fragment? column d).map Fragment.outline := by
  obtain ⟨p, test, operand⟩ := c
  obtain ⟨q, _, operand'⟩ := d
  obtain ⟨-, rfl, hoperand⟩ := h
  cases hoperand with
  | list hlength =>
    cases test <;> simp [fragment?, outline_membership hlength]
  | _ => cases test <;> rfl

theorem outline_joinFragments {fs gs : List Fragment}
    (h : fs.map Fragment.outline = gs.map Fragment.outline) (joiner empty : String) :
    (joinFragments joiner empty fs).outline = (joinFragments joiner empty gs).outline := by
  have htext : fs.map (·.text) = gs.map (·.text) := by
    simpa [Fragment.outline, Function.comp_def] using congrArg (List.map Prod.fst) h
  have hcount : fs.map (·.params.length) = gs.map (·.params.length) := by
    simpa [Fragment.outline, Function.comp_def] using congrArg (List.map Prod.snd) h
  rw [joinFragments_eq, joinFragments_eq]
  simp only [Fragment.outline, List.length_flatMap, htext, hcount]

/-! ## The clause -/

/-- Open joins are the same, and so are the pieces but for their values. -/
def SameClause (r s : List Join × Fragment) : Prop := r.1 = s.1 ∧ r.2.outline = s.2.outline

def SameClauses (r s : List Join × List Fragment) : Prop :=
  r.1 = s.1 ∧ r.2.map Fragment.outline = s.2.map Fragment.outline

theorem alike_checkClause (h : c.SameShape d) (joins : List Join) :
    Alike SameClause (checkClause joins c) (checkClause joins d) := by
  unfold checkClause
  rw [column_eq_of_way h.way, mismatch_eq_of_sameShape h]
  have houtline := outline_fragment? h (column joins d.path).2
  dsimp only
  cases hc : fragment? (column joins d.path).2 c with
  | none =>
    rw [hc, Option.map_none, eq_comm, Option.map_eq_none_iff] at houtline
    rw [houtline]
    exact .refused _
  | some f =>
    rw [hc, Option.map_some, eq_comm, Option.map_eq_some_iff] at houtline
    obtain ⟨g, hd, hg⟩ := houtline
    rw [hd]
    exact .fine ⟨rfl, hg.symm⟩

mutual

theorem alike_clause : ∀ {e f : Expr}, e.SameShape f → ∀ joins : List Join,
    Alike SameClause (clause joins e) (clause joins f)
  | _, _, .and h, joins | _, _, .or h, joins => by
    rw [clause, clause]
    apply (alike_clauses h joins).map
    rintro r s ⟨hjoins, hpieces⟩
    exact ⟨hjoins, outline_joinFragments hpieces _ _⟩
  | _, _, .check h, joins => alike_checkClause h joins

theorem alike_clauses : ∀ {es fs : List Expr}, Expr.SameShapes es fs → ∀ joins : List Join,
    Alike SameClauses (clauses joins es) (clauses joins fs)
  | _, _, .nil, joins => .fine ⟨rfl, rfl⟩
  | _, _, .cons h hrest, joins => by
    rw [clauses, clauses]
    apply (alike_clause h joins).bind
    rintro r s ⟨hjoins, hpiece⟩
    rw [hjoins]
    apply (alike_clauses hrest s.1).map
    rintro r' s' ⟨hjoins', hpieces⟩
    exact ⟨hjoins', by simp [hpiece, hpieces]⟩

end

/-- The joins and the text of the clause are the same, and so is the number of the values. -/
def Query.SameText (q r : Query) : Prop :=
  q.joins = r.joins ∧ q.whereClause = r.whereClause ∧ q.params.length = r.params.length

/-- Expressions of one shape are refused for the same check, or they have the same joins and the
same clause, which has room for as many values. -/
theorem render_sameShape {e f : Expr} (h : e.SameShape f) :
    (∃ err, render e = .error err ∧ render f = .error err) ∨
      ∃ q r, render e = .ok q ∧ render f = .ok r ∧ q.SameText r := by
  have halike : Alike Query.SameText (render e) (render f) := by
    apply (alike_clause h []).map
    rintro r s ⟨hjoins, hpiece⟩
    obtain ⟨htext, hcount⟩ := Prod.mk.inj hpiece
    exact ⟨hjoins, htext, hcount⟩
  exact halike.error_or_ok

def guestName : Path :=
  ⟨"Visit", [⟨"guest", "guest_id", .association .single⟩, ⟨"name", "name", .scalar⟩],
    .scalar .text⟩

/-- Visits of a guest whose name is like the pattern and one of two names. -/
def guestSearch (pattern first second : String) : Expr :=
  .and [.check ⟨guestName, .like, .pattern (Text.Pattern.ofWildcard '*' pattern)⟩,
    .or [.check ⟨guestName, .isIn,
      .list [⟨.text first, .scalar .text⟩, ⟨.text second, .scalar .text⟩]⟩]]

/-- Text that would end the clause stays out of it. -/
theorem guestSearch_sameText :
    (guestSearch "al*" "Bob" "Eve").SameShape (guestSearch "%' OR 1=1 --" "?" "') OR ('1'='1") ∧
      ((∃ err, render (guestSearch "al*" "Bob" "Eve") = .error err ∧
          render (guestSearch "%' OR 1=1 --" "?" "') OR ('1'='1") = .error err) ∨
        ∃ q r, render (guestSearch "al*" "Bob" "Eve") = .ok q ∧
          render (guestSearch "%' OR 1=1 --" "?" "') OR ('1'='1") = .ok r ∧ q.SameText r) := by
  have hshape : (guestSearch "al*" "Bob" "Eve").SameShape
      (guestSearch "%' OR 1=1 --" "?" "') OR ('1'='1") :=
    .and (.cons (.check ⟨rfl, rfl, .pattern _ _⟩)
      (.cons (.or (.cons (.check ⟨rfl, rfl, .list rfl⟩) .nil)) .nil))
  exact ⟨hshape, render_sameShape hshape⟩

end Sql

end RecordFilter
