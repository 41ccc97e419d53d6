import Mathlib.Data.List.Induction
import RecordFilter.Proofs.Schema.Resolution
import RecordFilter.Proofs.Yields

/-!
# The rules for fields

The fields of a schema are checked in the order of their declaration, each against the names before
it and then for its nesting, its cardinality and the type of its elements. They pass just when all
of them keep the rules, and otherwise they are refused for the first rule that is broken.
-/

namespace RecordFilter

namespace Schema

/-! ## One field -/

/-- Just a field that leads on has a nested schema. -/
def NestsRight (f : Field) : Prop :=
  f.nested.isSome = true ↔ f.kind = .embedded ∨ f.kind = .association

def CountsRight (f : Field) : Prop :=
  (f.kind = .scalar ∨ f.kind = .embedded → f.cardinality = .single) ∧
    (f.kind = .elementCollection → f.cardinality = .many)

def HoldsElements (f : Field) : Prop :=
  f.kind = .elementCollection → (∃ s, f.declared = .scalar s) ∨
    (∃ m, f.declared = .enumeration m) ∨ ∃ c, f.declared = .custom c

/-- The first rule that a field with a new name breaks. -/
inductive FieldBreaks (schema : String) (f : Field) : SchemaError → Prop
  | nestedMissing (hkind : f.kind = .embedded ∨ f.kind = .association) (hnested : f.nested = none) :
      FieldBreaks schema f (.nestedMissing schema f.name f.kind)
  | nestedUnexpected (hkind : f.kind = .scalar ∨ f.kind = .elementCollection)
      (hnested : f.nested.isSome = true) :
      FieldBreaks schema f (.nestedUnexpected schema f.name f.kind)
  | cardinality (hnested : NestsRight f) (hcardinality : ¬ CountsRight f) :
      FieldBreaks schema f (.cardinality schema f.name f.kind f.cardinality)
  | elementType (hnested : NestsRight f) (hcardinality : CountsRight f)
      (helement : ¬ HoldsElements f) :
      FieldBreaks schema f (.elementType schema f.name f.declared)

theorem isNested_iff {k : FieldKind} : k.isNested = true ↔ k = .embedded ∨ k = .association := by
  rw [FieldKind.isNested, Bool.not_eq_true', FieldKind.isTerminal_eq_false_iff]

theorem isNested_eq_false_iff {k : FieldKind} :
    k.isNested = false ↔ k = .scalar ∨ k = .elementCollection := by
  rw [FieldKind.isNested, Bool.not_eq_false', FieldKind.isTerminal_iff]

theorem nestsRight_iff {f : Field} : NestsRight f ↔ f.nested.isSome = f.kind.isNested := by
  unfold NestsRight
  rw [← isNested_iff]
  exact Bool.eq_iff_iff.symm

theorem nestsRight_iff_not {f : Field} : NestsRight f ↔
    ¬((f.kind = .embedded ∨ f.kind = .association) ∧ f.nested = none) ∧
      ¬((f.kind = .scalar ∨ f.kind = .elementCollection) ∧ f.nested.isSome = true) := by
  unfold NestsRight
  cases f.kind <;> cases f.nested <;> simp

theorem countsRight_iff {f : Field} : CountsRight f ↔ f.kind.allows f.cardinality = true := by
  unfold CountsRight
  cases f.kind <;> cases f.cardinality <;> decide

theorem holdsElements_iff {f : Field} :
    HoldsElements f ↔ (f.kind = .elementCollection → f.declared.isElement = true) := by
  unfold HoldsElements
  cases f.declared <;> simp [FieldType.isElement]

theorem checkField_eq_ok_iff_keeps {schema : String} {f : Field} :
    checkField schema f = .ok () ↔ NestsRight f ∧ CountsRight f ∧ HoldsElements f := by
  rw [checkField_eq_ok_iff, nestsRight_iff, countsRight_iff, holdsElements_iff]

theorem checkField_eq_error_iff {schema : String} {f : Field} {e : SchemaError} :
    checkField schema f = .error e ↔ FieldBreaks schema f e := by
  have hmissing : f.kind.isNested = true ∧ f.nested.isNone = true ↔
      (f.kind = .embedded ∨ f.kind = .association) ∧ f.nested = none := by
    rw [isNested_iff, Option.isNone_iff_eq_none]
  have hunexpected : (!f.kind.isNested) = true ∧ f.nested.isSome = true ↔
      (f.kind = .scalar ∨ f.kind = .elementCollection) ∧ f.nested.isSome = true := by
    rw [Bool.not_eq_true', isNested_eq_false_iff]
  have hcounts : (!f.kind.allows f.cardinality) = true ↔ ¬ CountsRight f := by
    rw [countsRight_iff, Bool.not_eq_true', Bool.not_eq_true]
  have helements : f.kind = .elementCollection ∧ (!f.declared.isElement) = true ↔
      ¬ HoldsElements f := by
    rw [holdsElements_iff, Bool.not_eq_true', Classical.not_imp, Bool.not_eq_true]
  unfold checkField
  simp only [guard_eq_error_iff, hmissing, hunexpected, hcounts, helements, not_not]
  constructor
  · rintro (⟨⟨hkind, hnested⟩, rfl⟩ | ⟨hsome, ⟨⟨hkind, hnested⟩, rfl⟩ | ⟨hnone, h⟩⟩)
    · exact .nestedMissing hkind hnested
    · exact .nestedUnexpected hkind hnested
    · have hnests := nestsRight_iff_not.mpr ⟨hsome, hnone⟩
      obtain ⟨hcardinality, rfl⟩ | ⟨hcardinality, ⟨helement, rfl⟩ | ⟨-, h⟩⟩ := h
      · exact .cardinality hnests hcardinality
      · exact .elementType hnests hcardinality helement
      · cases h
  · rintro (⟨hkind, hnested⟩ | ⟨hkind, hnested⟩ | ⟨hnested, hcardinality⟩ |
      ⟨hnested, hcardinality, helement⟩)
    · exact .inl ⟨⟨hkind, hnested⟩, rfl⟩
    · refine .inr ⟨fun h => ?_, .inl ⟨⟨hkind, hnested⟩, rfl⟩⟩
      rw [h.2] at hnested
      cases hnested
    · obtain ⟨hsome, hnone⟩ := nestsRight_iff_not.mp hnested
      exact .inr ⟨hsome, .inr ⟨hnone, .inl ⟨hcardinality, rfl⟩⟩⟩
    · obtain ⟨hsome, hnone⟩ := nestsRight_iff_not.mp hnested
      exact .inr ⟨hsome, .inr ⟨hnone, .inr ⟨hcardinality, .inl ⟨helement, rfl⟩⟩⟩⟩

/-! ## All fields -/

structure FieldsKeep (fields : List Field) : Prop where
  distinct : (fields.map (·.name)).Nodup
  nested : ∀ f ∈ fields, NestsRight f
  cardinality : ∀ f ∈ fields, CountsRight f
  elements : ∀ f ∈ fields, HoldsElements f

theorem checkFields_eq_ok_iff_keep {schema : String} {fields : List Field} :
    checkFields schema [] fields = .ok () ↔ FieldsKeep fields := by
  simp only [checkFields_eq_ok_iff, checkField_eq_ok_iff_keeps, List.not_mem_nil, not_false_eq_true,
    implies_true, and_true]
  constructor
  · rintro ⟨hkeep, hdistinct⟩
    exact ⟨hdistinct, fun f hf => (hkeep f hf).1, fun f hf => (hkeep f hf).2.1,
      fun f hf => (hkeep f hf).2.2⟩
  · intro h
    exact ⟨fun f hf => ⟨h.nested f hf, h.cardinality f hf, h.elements f hf⟩, h.distinct⟩

/-- The first rule that a field breaks behind those before it. -/
inductive NextBreaks (schema : String) (before : List Field) (f : Field) : SchemaError → Prop
  | duplicate (hname : ∃ g ∈ before, g.name = f.name) :
      NextBreaks schema before f (.duplicateField schema f.name)
  | own {e : SchemaError} (hname : ∀ g ∈ before, g.name ≠ f.name) (h : FieldBreaks schema f e) :
      NextBreaks schema before f e

theorem checkFields_append {schema : String} {seen : List String} {before fs : List Field} :
    checkFields schema seen (before ++ fs) = (do
      checkFields schema seen before
      checkFields schema ((before.map (·.name)).reverse ++ seen) fs) := by
  induction before generalizing seen with
  | nil => rfl
  | cons f rest ih =>
    rw [List.cons_append, checkFields, checkFields]
    split
    · rfl
    · cases checkField schema f with
      | error e => rfl
      | ok u => simp [ih, bind, Except.bind]

theorem checkFields_next {schema : String} {before : List Field} {f : Field} {e : SchemaError} :
    checkFields schema ((before.map (·.name)).reverse ++ []) [f] = .error e ↔
      NextBreaks schema before f e := by
  have hknown : ((before.map fun g : Field => g.name).reverse ++ []).contains f.name = true ↔
      ∃ g ∈ before, g.name = f.name := by simp
  rw [checkFields, guard_eq_error_iff, hknown, bind_eq_error_iff, checkField_eq_error_iff]
  constructor
  · rintro (⟨hname, rfl⟩ | ⟨hname, h | ⟨-, -, h⟩⟩)
    · exact .duplicate hname
    · exact .own (fun g hg heq => hname ⟨g, hg, heq⟩) h
    · cases h
  · rintro (hname | ⟨hname, h⟩)
    · exact .inl ⟨hname, rfl⟩
    · refine .inr ⟨?_, .inl h⟩
      rintro ⟨g, hg, heq⟩
      exact hname g hg heq

theorem checkFields_eq_error_iff {schema : String} {fields : List Field} {e : SchemaError} :
    checkFields schema [] fields = .error e ↔ ∃ before f after,
      fields = before ++ f :: after ∧ FieldsKeep before ∧ NextBreaks schema before f e := by
  constructor
  · induction fields using List.reverseRecOn with
    | nil => exact nofun
    | append_singleton fs f ih =>
      rw [checkFields_append, bind_eq_error_iff, checkFields_next]
      rintro (h | ⟨u, hfs, h⟩)
      · obtain ⟨before, g, after, rfl, hbefore, hnext⟩ := ih h
        exact ⟨before, g, after ++ [f], by simp, hbefore, hnext⟩
      · exact ⟨fs, f, [], rfl, checkFields_eq_ok_iff_keep.mp hfs, h⟩
  · rintro ⟨before, f, after, rfl, hbefore, hnext⟩
    rw [List.append_cons, checkFields_append, bind_eq_error_iff]
    refine .inl ?_
    rw [checkFields_append, bind_eq_error_iff, checkFields_next]
    exact .inr ⟨(), checkFields_eq_ok_iff_keep.mpr hbefore, hnext⟩

end Schema

end RecordFilter
