import RecordFilter.Proofs.Coercion.Typing
import RecordFilter.Proofs.Compile.Checks

/-!
# Compiled operands are well typed

A compiler whose coercer has the built-in strategies alone, and a schema without types of the
caller's own, give operands that are values of the type at the end of their path.
-/

namespace RecordFilter

/-! ## Schemas without types of the caller's own -/

namespace Schema

/-- No field of the schema, nor of a schema nested in it, has a type of the caller's own in it. -/
inductive IsBuiltIn : Schema → Prop
  | mk {s : Schema} (declared : ∀ f ∈ s.fields, f.declared.isBuiltIn = true)
      (nested : ∀ f ∈ s.fields, ∀ inner, f.nested = some inner → IsBuiltIn inner) : IsBuiltIn s

theorem IsBuiltIn.declared {s : Schema} (h : s.IsBuiltIn) {f : Field} (hf : f ∈ s.fields) :
    f.declared.isBuiltIn = true := by
  obtain ⟨hdeclared, -⟩ := h
  exact hdeclared f hf

theorem IsBuiltIn.nested {s : Schema} (h : s.IsBuiltIn) {f : Field} (hf : f ∈ s.fields)
    {inner : Schema} (hinner : f.nested = some inner) : inner.IsBuiltIn := by
  obtain ⟨-, hnested⟩ := h
  exact hnested f hf inner hinner

theorem IsBuiltIn.walk {s : Schema} (hs : s.IsBuiltIn) (max : UInt64) (selector : String)
    (steps : Nat) (heads : List String) :
    Yields (s.walk max selector steps heads) (·.2.isBuiltIn = true) := by
  induction steps generalizing s heads with
  | zero => cases heads <;> exact yields_error _
  | succ steps ih =>
    cases heads with
    | nil => exact yields_error _
    | cons name rest =>
      rw [Schema.walk]
      cases hfield : s.field? name with
      | none =>
        dsimp only
        split
        · exact yields_error _
        · split
          · exact yields_error _
          · exact ih hs _
      | some f =>
        have hf : f ∈ s.fields := List.mem_of_find?_eq_some hfield
        dsimp only
        split
        · split
          · exact yields_ok (hs.declared hf)
          · exact yields_error _
        · split
          · rename_i hinner
            exact (ih (hs.nested hf hinner) _).map fun _ => id
          · exact yields_error _

theorem IsBuiltIn.terminal {s : Schema} (hs : s.IsBuiltIn) (max : UInt64) (selector : String) :
    Yields (s.resolve max selector) (·.terminal.isBuiltIn = true) :=
  (yields_trivial _).bind fun heads _ =>
    (hs.walk max selector max.toNat heads).bind fun _ h => yields_ok h

end Schema

/-! ## Operands -/

/-- The values of the operand are of the type at the end of the path, and no text is tested for
equality. -/
structure Check.WellTyped (c : Check) : Prop where
  typed : ∀ v ∈ c.operand.values, v.IsOf c.path.terminal
  noText : c.test = .eq ∨ c.test = .ne → ∀ v ∈ c.operand.values, v.value.isText = false

theorem Settings.holds_of_valueRange {s : Settings} {op : Operator} {v low high : Value}
    (h : s.valueRange op v = some (low, high)) (t : Scalar) :
    t.holds low = t.holds v ∧ t.holds high = t.holds v := by
  unfold valueRange at h
  split at h
  · obtain ⟨r, -, heq⟩ := Option.map_eq_some_iff.mp h
    cases heq
    cases t <;> exact ⟨rfl, rfl⟩
  · obtain ⟨r, -, heq⟩ := Option.map_eq_some_iff.mp h
    cases heq
    cases t <;> exact ⟨rfl, rfl⟩
  · obtain ⟨r, -, heq⟩ := Option.map_eq_some_iff.mp h
    cases heq
    cases t <;> exact ⟨rfl, rfl⟩
  · cases h

theorem isOf_range {s : Settings} {op : Operator} {v : TypedValue} {t : FieldType}
    {low high : Value} (hv : v.IsOf t) (hnull : ¬ v.value.isNull = true)
    (hwidened : t.isWidened = true) (h : s.valueRange op v.value = some (low, high)) :
    TypedValue.IsOf ⟨low, t⟩ t ∧ TypedValue.IsOf ⟨high, t⟩ t := by
  cases t with
  | scalar t =>
    have hfits : t.holds v.value = true := by
      rcases hv.2 with heq | hfits
      · exact absurd (by rw [heq]; rfl) hnull
      · exact hfits
    obtain ⟨hlow, hhigh⟩ := s.holds_of_valueRange h t
    exact ⟨⟨rfl, .inr (hlow.trans hfits)⟩, ⟨rfl, .inr (hhigh.trans hfits)⟩⟩
  | _ => cases hwidened

/-! ## Filters -/

namespace Compiler

variable {path : Path}

theorem valueCheck_of_not_text {s : Settings} {negated : Bool} {v : TypedValue}
    (hnull : v.value ≠ .null) (htext : v.value.isText = false) :
    valueCheck s negated path v = ⟨path, if negated then .ne else .eq, .value v⟩ := by
  unfold valueCheck
  split
  · rename_i hvalue
    exact absurd hvalue hnull
  · rename_i hvalue
    rw [hvalue] at htext
    cases htext
  · rfl

theorem wellTyped_valueCheck {s : Settings} {negated : Bool} {v : TypedValue}
    (hv : v.IsOf path.terminal) : (valueCheck s negated path v).WellTyped := by
  unfold valueCheck
  split
  · exact ⟨nofun, fun _ => nofun⟩
  · exact ⟨nofun, fun _ => nofun⟩
  · rename_i hnull htext
    have hvalue : v.value.isText = false := by
      cases h : v.value with
      | text s => exact absurd h (htext s)
      | _ => rfl
    exact ⟨List.forall_mem_singleton.mpr hv, fun _ => List.forall_mem_singleton.mpr hvalue⟩

theorem isOf_of_mem_candidates {model : EnumModel} {keyword : String} {v : TypedValue}
    (hv : v ∈ (model.candidateValues keyword).map fun e =>
      (⟨.enumMember e, .enumeration model⟩ : TypedValue)) :
    v.IsOf (.enumeration model) := by
  obtain ⟨e, he, rfl⟩ := List.mem_map.mp hv
  obtain ⟨member, hmember, rfl⟩ := List.mem_map.mp he
  exact ⟨rfl, .inr ⟨member, (List.mem_filter.mp hmember).1, rfl⟩⟩

theorem wellTyped_candidateCheck {negated : Bool} {model : EnumModel} {raw : String}
    {check : Check} (hmodel : path.terminal = .enumeration model)
    (h : candidateCheck negated path model raw = some check) : check.WellTyped := by
  unfold candidateCheck at h
  split at h
  · cases h
  · cases h
    rw [hmodel]
    refine ⟨fun v hv => ?_, ?_⟩
    · rw [hmodel]
      exact isOf_of_mem_candidates hv
    · cases negated <;> simp

variable {c : Compiler} (hc : c.coercer.IsStandard) (hpath : path.terminal.isBuiltIn = true)

include hc hpath

theorem lowers_wellTyped : Lowers Check.WellTyped c path where
  equality negated raw := by
    refine lowerEquality_yields (fun v hv => ?_) fun _ _ => wellTyped_candidateCheck
    exact wellTyped_valueCheck (hc.isOf_coerce hpath raw v hv)
  ordering op raw := by
    refine lowerOrdering_yields (fun v hv _ => ?_) fun v low high hv hnull hwidened hrange => ?_
    · refine ⟨List.forall_mem_singleton.mpr (hc.isOf_coerce hpath raw v hv), ?_⟩
      cases op <;> simp [orderingTest]
    · obtain ⟨hlow, hhigh⟩ := isOf_range (hc.isOf_coerce hpath raw v hv) hnull hwidened hrange
      refine ⟨?_, by simp⟩
      exact List.forall_mem_cons.mpr ⟨hlow, List.forall_mem_singleton.mpr hhigh⟩
  membership op arguments := by
    refine lowerMembership_yields fun values test _ hvalues htest => ?_
    refine ⟨hc.isOf_coerceAll hpath arguments values hvalues, ?_⟩
    rcases htest with rfl | rfl <;> simp

end Compiler

/-! ## Keywords -/

/-- The type at the end of the target's path has nothing of the caller's own in it, and it is the
one that the heuristic is for. -/
def Target.Suits (t : Target) : Prop :=
  t.path.terminal.isBuiltIn = true ∧ Heuristic.ofType? t.path.terminal = some t.heuristic

theorem Schema.IsBuiltIn.suits_targetsFrom {s : Schema} (hs : s.IsBuiltIn) (root : String)
    (room : Nat) (follows : String → Bool) (way : List Segment) :
    ∀ t ∈ Schema.targetsFrom root room s follows way, t.Suits := by
  induction room generalizing s follows way with
  | zero => exact nofun
  | succ room ih =>
    rw [Schema.targetsFrom]
    refine List.forall_mem_flatMap.mpr fun f hf => ?_
    dsimp only
    split
    · split
      · rename_i hsuits
        exact List.forall_mem_singleton.mpr ⟨hs.declared hf, hsuits⟩
      · exact nofun
    · split
      · rename_i hsuits
        exact List.forall_mem_singleton.mpr ⟨hs.declared hf, hsuits⟩
      · exact nofun
    · split
      · rename_i hinner
        exact ih (hs.nested hf hinner) _ _
      · exact nofun
    · split
      · split
        · rename_i hinner
          exact ih (hs.nested hf hinner) _ _
        · exact nofun
      · exact nofun

theorem FieldType.fits_bool {t : FieldType} (h : Heuristic.ofType? t = some .boolLiteral)
    (b : Bool) : t.Fits (.bool b) := by
  cases t with
  | scalar t => cases t <;> first | rfl | cases h
  | _ => cases h

theorem FieldType.Fits.eq_text {t : FieldType} {v : Value} (h : t.Fits v)
    (hv : v.isText = true) : t = .scalar .text := by
  cases v <;> cases hv
  cases t with
  | scalar t => cases t <;> first | rfl | cases h
  | array e => obtain ⟨items, hitems, -⟩ := h; cases hitems
  | enumeration m => obtain ⟨member, -, hmember⟩ := h; cases hmember
  | custom c => exact h.elim
  | record name => exact h.elim

namespace Target

variable {t : Target} {coercer : Coercer} (hc : coercer.IsStandard) (ht : t.Suits)

include hc ht

theorem Suits.wellTyped_equality {keyword : String} {test : Test} {operand : Operand}
    (hheuristic : t.heuristic ≠ .substring)
    (h : Heuristic.equality coercer keyword t.path.terminal = .term test operand) :
    Check.WellTyped ⟨t.path, test, operand⟩ := by
  unfold Heuristic.equality at h
  split at h
  · rename_i v hconvert
    cases h
    have hfits : t.path.terminal.Fits v := hc.fits_convert ht.1 keyword v hconvert
    have hvalue : v.isText = false := by
      -- Text is of the type for text only, and such fields are searched for the keyword.
      refine Bool.eq_false_iff.mpr fun hv => hheuristic ?_
      have hsuits := ht.2
      rw [hfits.eq_text hv] at hsuits
      exact (Option.some.inj hsuits).symm
    exact ⟨List.forall_mem_singleton.mpr ⟨rfl, .inr hfits⟩,
      fun _ => List.forall_mem_singleton.mpr hvalue⟩
  · cases h

theorem Suits.wellTyped {keyword : String} {test : Test} {operand : Operand}
    (h : t.outcome coercer keyword = .term test operand) :
    Check.WellTyped ⟨t.path, test, operand⟩ := by
  obtain ⟨path, heuristic⟩ := t
  cases heuristic with
  | substring =>
    cases h
    exact ⟨nofun, fun _ => nofun⟩
  | boolLiteral =>
    simp only [outcome, Heuristic.apply] at h
    split at h
    · rename_i b _
      cases h
      have hfits : path.terminal.Fits (.bool b) := FieldType.fits_bool ht.2 b
      exact ⟨List.forall_mem_singleton.mpr ⟨rfl, .inr hfits⟩,
        fun _ => List.forall_mem_singleton.mpr rfl⟩
    · cases h
  | enumCandidates =>
    simp only [outcome, Heuristic.apply, Heuristic.membership] at h
    split at h
    · rename_i model hmodel
      split at h
      · cases h
      · cases h
        refine ⟨fun v hv => ?_, by simp⟩
        rw [hmodel]
        exact Compiler.isOf_of_mem_candidates hv
    · cases h
  | identifier | year | numeric =>
    simp only [outcome, Heuristic.apply] at h
    split at h
    · exact ht.wellTyped_equality hc (by simp) h
    · cases h

end Target

namespace Compiler

/-- The values in a compiled expression are of the types at the ends of the paths that they are
compared with, or null; and no text is tested for equality. -/
theorem wellTyped_of_makes {c : Compiler} (hc : c.coercer.IsStandard) {root : Schema}
    (hroot : root.IsBuiltIn) {e : Expr} (h : Makes c root e) :
    ∀ check ∈ e.checks, check.WellTyped :=
  h.each (fun selector path hpath =>
    lowers_wellTyped hc (hroot.terminal c.settings.maxDepth selector path hpath))
    fun _ _ t ht _ _ happly =>
      (hroot.suits_targetsFrom _ _ _ _ t ht).wellTyped hc happly

def games : Schema :=
  .mk "Game"
    [⟨"level", none, .enumeration ⟨"Level", [⟨"easy", 1, none⟩, ⟨"hard", 2, none⟩]⟩, .single,
        .scalar, none⟩,
      ⟨"scores", none, .array (.scalar .u8), .single, .scalar, none⟩] []

def scoredGames : Expr :=
  .check ⟨⟨"Game", [⟨"scores", "scores", .scalar⟩], .array (.scalar .u8)⟩, .ne,
    .value ⟨.list [.uint 7, .null], .array (.scalar .u8)⟩⟩

theorem scoredGames_wellTyped :
    Coercer.standard.IsStandard ∧ games.IsBuiltIn ∧
      compile ⟨{}, .standard⟩ games (.test "scores" .ne [" 7, "]) = .ok scoredGames ∧
        ∀ check ∈ scoredGames.checks, check.WellTyped := by
  have hgames : games.IsBuiltIn := .mk (by decide) (by simp [games, Schema.fields])
  have hcompile : compile ⟨{}, .standard⟩ games (.test "scores" .ne [" 7, "]) = .ok scoredGames :=
    rfl
  exact ⟨Coercer.isStandard_standard, hgames, hcompile,
    wellTyped_of_makes Coercer.isStandard_standard hgames (.filter hcompile)⟩

end Compiler

end RecordFilter
