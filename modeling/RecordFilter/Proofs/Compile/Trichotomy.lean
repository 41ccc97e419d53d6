import RecordFilter.Proofs.Compile.Typing
import RecordFilter.Proofs.Compile.Clauses
import RecordFilter.Proofs.Expr.Opposed
import RecordFilter.Proofs.Value.Linear

/-!
# Less, equal and greater

Where the values of a field stand in a line, a row is on one side of the operand or at its place,
and the tests for less, equal and greater say which. Two members in one place are an exception: none
of the three tests matches, while both tests that allow a place to be shared do.
-/

namespace RecordFilter

/-- What the tests for less, equal, greater, no less and no greater give: one of the first three
matches, and the others match where their parts do. -/
structure Trichotomous (lt eq gt ge le : Bool) : Prop where
  one : [lt, eq, gt].count true = 1
  ge : ge = (gt || eq)
  le : le = (lt || eq)

/-! ## One value -/

namespace Check

variable {w : Value} {v : TypedValue}

theorem trichotomous_of_agree (hw : w ≠ .null) (hv : v.value ≠ .null) (h : w.Agree v.value) :
    Trichotomous (holdsFor w .lt (.value v)) (holdsFor w .eq (.value v))
      (holdsFor w .gt (.value v)) (holdsFor w .ge (.value v)) (holdsFor w .le (.value v)) := by
  obtain ⟨o, hcompare, hsame⟩ := h
  have heq : holdsFor w .eq (.value v) = (o == .eq) := by
    rw [Bool.eq_iff_iff, beq_iff_eq, ← hsame]
    simp [holdsFor, Value.equals, Value.isNull_eq_false hw, Value.isNull_eq_false hv]
  rw [heq]
  simp only [holdsFor, orders, hcompare]
  cases o with
  | lt | eq | gt => exact ⟨rfl, rfl, rfl⟩

theorem holdsFor_of_areTwins (h : w.AreTwins v.value) :
    holdsFor w .lt (.value v) = false ∧ holdsFor w .eq (.value v) = false ∧
      holdsFor w .gt (.value v) = false ∧ holdsFor w .ge (.value v) = true ∧
        holdsFor w .le (.value v) = true := by
  simp [holdsFor, orders, Value.equals, Value.compare?_of_areTwins h, Value.same_of_areTwins h]

end Check

/-! ## Compiled tests -/

theorem FieldType.isOrdered_of_isLinear {t : FieldType} (h : t.isLinear = true) :
    t.isOrdered = true ∧ t.isWidened = false := by
  cases t with
  | scalar t => cases t <;> first | exact ⟨rfl, rfl⟩ | cases h
  | enumeration _ => exact ⟨rfl, rfl⟩
  | _ => cases h

theorem FieldType.isText_of_isLinear {t : FieldType} (h : t.isLinear = true) {v : Value}
    (hv : t.Fits v) : v.isText = false := by
  cases t with
  | scalar t =>
    cases v with
    | text s => cases t <;> first | cases h; done | cases hv
    | _ => rfl
  | enumeration _ =>
    obtain ⟨member, -, rfl⟩ := hv
    rfl
  | _ => cases h

theorem FieldType.isBuiltIn_of_isLinear {t : FieldType} (h : t.isLinear = true) :
    t.isBuiltIn = true := by
  cases t <;> first | rfl | cases h

theorem Coercer.IsStandard.fits_of_coerce {c : Coercer} (hc : c.IsStandard) {t : FieldType}
    (ht : t.isBuiltIn = true) {raw : String} {v : TypedValue} (hv : c.coerce t raw = .ok v)
    (hnull : v.value ≠ .null) : t.Fits v.value :=
  (hc.isOf_coerce ht raw v hv).2.resolve_left hnull

namespace Compiler

variable {c : Compiler} {root : Schema} {selector raw : String} {path : Path} {v : TypedValue}

/-- The comparison with the operand as it is. -/
def comparedTo (path : Path) (test : Test) (v : TypedValue) : Expr :=
  .check ⟨path, test, .value v⟩

section

variable (hlinear : path.terminal.isLinear = true)
  (hv : c.coercer.coerce path.terminal raw = .ok v) (hnull : v.value ≠ .null)

include hlinear hv hnull

theorem lowerOrdering_of_isLinear (op : Operator) :
    c.lowerOrdering op path raw = .ok (comparedTo path (orderingTest op) v) := by
  obtain ⟨hordered, hwidened⟩ := FieldType.isOrdered_of_isLinear hlinear
  simp [lowerOrdering, hordered, hwidened, hv, Value.isNull_eq_false hnull, bind, Except.bind,
    comparedTo]
  rfl

variable (hc : c.coercer.IsStandard) (hpath : c.resolve root selector = .ok path)

include hpath

theorem compile_ordering_of_isLinear {op : Operator} (hop : op ∈ [.gt, .ge, .lt, .le]) :
    c.compile root (.test selector op [raw]) = .ok (comparedTo path (orderingTest op) v) := by
  rw [compile_test_eq_ok_iff hpath, lower_ordering hop,
    lowerOrdering_of_isLinear hlinear hv hnull]

include hc

theorem compile_eq_of_isLinear :
    c.compile root (.test selector .eq [raw]) = .ok (comparedTo path .eq v) := by
  have hfits := hc.fits_of_coerce (FieldType.isBuiltIn_of_isLinear hlinear) hv hnull
  rw [compile_test_eq_ok_iff hpath, lower_eq, lowerEquality_of_coerce hv,
    valueCheck_of_not_text hnull (FieldType.isText_of_isLinear hlinear hfits)]
  rfl

/-- Of the tests for less, equal and greater just one matches a row with a value of the type, and
the others match where their parts do. Where the value is the twin of the operand, none of the three
matches and the other two do. -/
theorem trichotomous_of_compile (hsingle : path.isMany = false) :
    ∃ lt eq gt ge le,
      c.compile root (.test selector .lt [raw]) = .ok lt ∧
      c.compile root (.test selector .eq [raw]) = .ok eq ∧
      c.compile root (.test selector .gt [raw]) = .ok gt ∧
      c.compile root (.test selector .ge [raw]) = .ok ge ∧
      c.compile root (.test selector .le [raw]) = .ok le ∧
      ∀ (row : Row) w, row path.dotted = some w → path.terminal.Fits w →
        (¬ w.AreTwins v.value → Trichotomous (lt.eval row) (eq.eval row) (gt.eval row)
          (ge.eval row) (le.eval row)) ∧
        (w.AreTwins v.value → lt.eval row = false ∧ eq.eval row = false ∧ gt.eval row = false ∧
          ge.eval row = true ∧ le.eval row = true) := by
  refine ⟨comparedTo path .lt v, comparedTo path .eq v, comparedTo path .gt v,
    comparedTo path .ge v, comparedTo path .le v,
    compile_ordering_of_isLinear hlinear hv hnull hpath (by simp),
    compile_eq_of_isLinear hlinear hv hnull hc hpath,
    compile_ordering_of_isLinear hlinear hv hnull hpath (by simp),
    compile_ordering_of_isLinear hlinear hv hnull hpath (by simp),
    compile_ordering_of_isLinear hlinear hv hnull hpath (by simp), fun row w hrow hw => ?_⟩
  have heval : ∀ test : Test, test.reads = true →
      (comparedTo path test v).eval row = Check.holdsFor w test (.value v) :=
    fun test htest => Check.eval_eq_holdsFor hsingle htest hrow hw.ne_null
  rw [heval .lt rfl, heval .eq rfl, heval .gt rfl, heval .ge rfl, heval .le rfl]
  constructor
  · intro htwins
    have hfits := hc.fits_of_coerce (FieldType.isBuiltIn_of_isLinear hlinear) hv hnull
    exact Check.trichotomous_of_agree hw.ne_null hnull
      (Value.agree_of_fits hlinear hw hfits htwins)
  · exact Check.holdsFor_of_areTwins

end

def urgency : EnumModel := ⟨"Urgency", [⟨"LOW", 0, none⟩, ⟨"HIGH", 1, none⟩, ⟨"URGENT", 1, none⟩]⟩

def tickets : Schema :=
  .mk "Ticket" [⟨"urgency", none, .enumeration urgency, .single, .scalar, none⟩] []

def urgencyPath : Path := ⟨"Ticket", [⟨"urgency", "urgency", .scalar⟩], .enumeration urgency⟩

def low : Value := .enumMember ⟨"Urgency", "LOW", 0⟩

def high : Value := .enumMember ⟨"Urgency", "HIGH", 1⟩

def urgent : Value := .enumMember ⟨"Urgency", "URGENT", 1⟩

theorem fits_low : urgencyPath.terminal.Fits low := ⟨⟨"LOW", 0, none⟩, by simp [urgency], rfl⟩

theorem fits_urgent : urgencyPath.terminal.Fits urgent :=
  ⟨⟨"URGENT", 1, none⟩, by simp [urgency], rfl⟩

theorem not_areTwins_low_high : ¬ low.AreTwins high := by
  rintro ⟨e, e', he, he', -, hordinal, -⟩
  cases he
  cases he'
  cases hordinal

/-- The test against the member of high urgency. -/
def againstHigh (test : Test) : Expr := comparedTo urgencyPath test ⟨high, urgencyPath.terminal⟩

theorem tickets_high :
    urgencyPath.terminal.isLinear = true ∧
      Coercer.standard.coerce urgencyPath.terminal "HIGH" = .ok ⟨high, urgencyPath.terminal⟩ ∧
      high ≠ .null ∧ Coercer.standard.IsStandard ∧
      resolve ⟨{}, .standard⟩ tickets "urgency" = .ok urgencyPath ∧
      urgencyPath.isMany = false :=
  ⟨rfl, rfl, nofun, Coercer.isStandard_standard, rfl, rfl⟩

theorem compile_tickets_high :
    compile ⟨{}, .standard⟩ tickets (.test "urgency" .lt ["HIGH"]) = .ok (againstHigh .lt) ∧
      compile ⟨{}, .standard⟩ tickets (.test "urgency" .eq ["HIGH"]) = .ok (againstHigh .eq) ∧
      compile ⟨{}, .standard⟩ tickets (.test "urgency" .gt ["HIGH"]) = .ok (againstHigh .gt) ∧
      compile ⟨{}, .standard⟩ tickets (.test "urgency" .ge ["HIGH"]) = .ok (againstHigh .ge) ∧
      compile ⟨{}, .standard⟩ tickets (.test "urgency" .le ["HIGH"]) = .ok (againstHigh .le) :=
  ⟨rfl, rfl, rfl, rfl, rfl⟩

/-- A ticket of low urgency is below the operand. -/
theorem tickets_low :
    urgencyPath.terminal.Fits low ∧ ¬ low.AreTwins high ∧
      (againstHigh .lt).eval (fun _ => some low) = true ∧
      Trichotomous ((againstHigh .lt).eval fun _ => some low)
        ((againstHigh .eq).eval fun _ => some low) ((againstHigh .gt).eval fun _ => some low)
        ((againstHigh .ge).eval fun _ => some low) ((againstHigh .le).eval fun _ => some low) := by
  obtain ⟨hlinear, hhigh, hnull, hstandard, hpath, hsingle⟩ := tickets_high
  obtain ⟨lt, eq, gt, ge, le, hlt, heq, hgt, hge, hle, hall⟩ :=
    trichotomous_of_compile (c := ⟨{}, .standard⟩) hlinear hhigh hnull hstandard hpath hsingle
  obtain ⟨hlt', heq', hgt', hge', hle'⟩ := compile_tickets_high
  obtain rfl := Except.ok.inj (hlt.symm.trans hlt')
  obtain rfl := Except.ok.inj (heq.symm.trans heq')
  obtain rfl := Except.ok.inj (hgt.symm.trans hgt')
  obtain rfl := Except.ok.inj (hge.symm.trans hge')
  obtain rfl := Except.ok.inj (hle.symm.trans hle')
  exact ⟨fits_low, not_areTwins_low_high, rfl,
    (hall (fun _ => some low) low rfl fits_low).1 not_areTwins_low_high⟩

/-- Nothing more holds: a ticket of the other member in the place of the operand is not less, equal
or greater. -/
theorem tickets_urgent :
    ¬ ∀ (c : Compiler) (root : Schema) (selector raw : String) (path : Path) (v : TypedValue),
      c.coercer.IsStandard → c.resolve root selector = .ok path → path.isMany = false →
      path.terminal.isLinear = true → c.coercer.coerce path.terminal raw = .ok v →
      v.value ≠ .null →
      ∃ lt eq gt ge le,
        c.compile root (.test selector .lt [raw]) = .ok lt ∧
        c.compile root (.test selector .eq [raw]) = .ok eq ∧
        c.compile root (.test selector .gt [raw]) = .ok gt ∧
        c.compile root (.test selector .ge [raw]) = .ok ge ∧
        c.compile root (.test selector .le [raw]) = .ok le ∧
        ∀ (row : Row) w, row path.dotted = some w → path.terminal.Fits w →
          Trichotomous (lt.eval row) (eq.eval row) (gt.eval row) (ge.eval row) (le.eval row) := by
  intro hthree
  obtain ⟨hlinear, hhigh, hnull, hstandard, hpath, hsingle⟩ := tickets_high
  obtain ⟨lt, eq, gt, ge, le, -, heq, hgt, hge, -, hall⟩ :=
    hthree ⟨{}, .standard⟩ tickets "urgency" "HIGH" urgencyPath ⟨high, urgencyPath.terminal⟩
      hstandard hpath hsingle hlinear hhigh hnull
  obtain ⟨-, heq', hgt', hge', -⟩ := compile_tickets_high
  obtain rfl := Except.ok.inj (heq.symm.trans heq')
  obtain rfl := Except.ok.inj (hgt.symm.trans hgt')
  obtain rfl := Except.ok.inj (hge.symm.trans hge')
  have hsplit := (hall (fun _ => some urgent) urgent rfl fits_urgent).ge
  have hge : (againstHigh .ge).eval (fun _ => some urgent) = true := rfl
  have hgt : (againstHigh .gt).eval (fun _ => some urgent) = false := rfl
  have heq : (againstHigh .eq).eval (fun _ => some urgent) = false := rfl
  rw [hge, hgt, heq] at hsplit
  cases hsplit

end Compiler

end RecordFilter
