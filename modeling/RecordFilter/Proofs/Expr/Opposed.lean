import RecordFilter.Expr.Eval

/-!
# Opposed tests

All tests but those for null read the values that a path offers, and only a value that is not null
can pass. So such a test never passes where there is no value, and nor does its opposite; where
there is a value, one of the two does.
-/

namespace RecordFilter

/-- The test does not ask whether there is a value, but reads it. -/
def Test.reads : Test → Bool
  | isNull | isNotNull => false
  | _ => true

theorem Value.isNull_eq_false {v : Value} (h : v ≠ .null) : v.isNull = false := by
  cases v <;> first | rfl | contradiction

namespace Check

variable {path : Path} {test test' : Test} {operand : Operand} {row : Row} {v : Value}

theorem eval_eq_any (htest : test.reads = true) (row : Row) :
    eval row ⟨path, test, operand⟩ =
      (offered path (row path.dotted)).any fun v => passes v test operand := by
  cases test <;> first | rfl | cases htest

theorem isAbsent_eq_false_of_mem_offered {found : Option Value} (hmem : v ∈ offered path found)
    (hv : v ≠ .null) : isAbsent path found = false := by
  cases found with
  | none => cases hmem
  | some w =>
    cases w with
    | list items =>
      rw [offered] at hmem
      split at hmem
      · simp [isAbsent, List.ne_nil_of_mem hmem]
      · simp [isAbsent, *]
    | null => exact absurd (List.mem_singleton.mp hmem) hv
    | _ => rfl

theorem eval_isNotNull_of_eval {check : Check} (hnull : check.test ≠ .isNull)
    (h : check.eval row = true) (operand : Operand) :
    eval row ⟨check.path, .isNotNull, operand⟩ = true := by
  obtain ⟨path, test, operand'⟩ := check
  cases htest : test.reads with
  | false => cases test <;> first | exact h | contradiction
  | true =>
    rw [eval_eq_any htest] at h
    obtain ⟨v, hmem, hpass⟩ := List.any_eq_true.mp h
    have hv : v ≠ .null := by
      rintro rfl
      cases hpass
    show (!isAbsent path (row path.dotted)) = true
    rw [isAbsent_eq_false_of_mem_offered hmem hv]
    rfl

/-! ## Paths with one value -/

section

variable (hsingle : path.isMany = false)

include hsingle

theorem offered_eq_toList (found : Option Value) : offered path found = found.toList := by
  unfold offered
  split
  · rw [if_neg (by simp [hsingle])]
    rfl
  · rfl
  · rfl

theorem eval_eq_false (htest : test.reads = true)
    (h : row path.dotted = none ∨ row path.dotted = some .null) :
    eval row ⟨path, test, operand⟩ = false := by
  rw [eval_eq_any htest, offered_eq_toList hsingle]
  rcases h with h | h <;> rw [h] <;> rfl

theorem eval_eq_holdsFor (htest : test.reads = true) (h : row path.dotted = some v)
    (hv : v ≠ .null) : eval row ⟨path, test, operand⟩ = holdsFor v test operand := by
  rw [eval_eq_any htest, offered_eq_toList hsingle, h]
  simp [passes, Value.isNull_eq_false hv]

end

end Check

/-! ## Opposed expressions -/

/-- Neither expression matches a row without a value at the path, and just one of them a row with a
value that they ask for. -/
structure Opposed (path : Path) (asked : Value → Prop) (e e' : Expr) : Prop where
  absent : ∀ row : Row, row path.dotted = none ∨ row path.dotted = some .null →
    e.eval row = false ∧ e'.eval row = false
  present : ∀ (row : Row) v, row path.dotted = some v → v ≠ .null → asked v →
    e.eval row = !e'.eval row

namespace Check

variable {path : Path} {test test' : Test} {operand : Operand} {asked : Value → Prop}
  (hsingle : path.isMany = false)

include hsingle

theorem opposed_of_holdsFor (htest : test.reads = true) (htest' : test'.reads = true)
    (h : ∀ v, asked v → holdsFor v test operand = !holdsFor v test' operand) :
    Opposed path asked (.check ⟨path, test, operand⟩) (.check ⟨path, test', operand⟩) where
  absent row hrow := ⟨eval_eq_false hsingle htest hrow, eval_eq_false hsingle htest' hrow⟩
  present row v hrow hv hasked := by
    show eval row _ = !eval row _
    rw [eval_eq_holdsFor hsingle htest hrow hv, eval_eq_holdsFor hsingle htest' hrow hv, h v hasked]

theorem opposed_value (v : TypedValue) :
    Opposed path asked (.check ⟨path, .eq, .value v⟩) (.check ⟨path, .ne, .value v⟩) :=
  opposed_of_holdsFor hsingle rfl rfl fun _ _ => (Bool.not_not _).symm

theorem opposed_list (items : List TypedValue) :
    Opposed path asked (.check ⟨path, .isIn, .list items⟩) (.check ⟨path, .notIn, .list items⟩) :=
  opposed_of_holdsFor hsingle rfl rfl fun _ _ => (Bool.not_not _).symm

theorem opposed_pattern (hasked : ∀ v, asked v → v.isText = true) (p : Text.Pattern) :
    Opposed path asked (.check ⟨path, .like, .pattern p⟩)
      (.check ⟨path, .notLike, .pattern p⟩) := by
  refine opposed_of_holdsFor hsingle rfl rfl fun v hv => ?_
  have htext := hasked v hv
  cases v with
  | text s => exact (Bool.not_not _).symm
  | _ => cases htext

end Check

end RecordFilter
