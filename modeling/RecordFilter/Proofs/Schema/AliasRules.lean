import Mathlib.Data.List.TakeWhile
import RecordFilter.Proofs.Schema.FieldRules
import RecordFilter.Proofs.Schema.Selector

/-!
# The rules for aliases

An alias stands for the target that it was given last. It must not have the name of a field, and its
target must start with the name of a field or of an alias.
-/

namespace RecordFilter

namespace Schema

/-! ## The table of aliases -/

/-- The name stands for the target that it was given last. -/
def Stands (aliases : List (String × String)) (name target : String) : Prop :=
  ∃ before after, aliases = before ++ (name, target) :: after ∧ ∀ a ∈ after, a.1 ≠ name

theorem stands_cons_iff {a : String × String} {rest : List (String × String)}
    {name target : String} : Stands (a :: rest) name target ↔
      Stands rest name target ∨ a = (name, target) ∧ ∀ b ∈ rest, b.1 ≠ name := by
  constructor
  · rintro ⟨before, after, heq, hafter⟩
    cases before with
    | nil =>
      obtain ⟨rfl, rfl⟩ := List.cons.inj heq
      exact .inr ⟨rfl, hafter⟩
    | cons b before =>
      obtain ⟨rfl, rfl⟩ := List.cons.inj heq
      exact .inl ⟨before, after, rfl, hafter⟩
  · rintro (⟨before, after, rfl, hafter⟩ | ⟨rfl, hrest⟩)
    · exact ⟨a :: before, after, rfl, hafter⟩
    · exact ⟨[], rest, rfl, hrest⟩

theorem exists_stands_iff {aliases : List (String × String)} {name : String} :
    (∃ target, Stands aliases name target) ↔ ∃ a ∈ aliases, a.1 = name := by
  constructor
  · rintro ⟨target, before, after, rfl, -⟩
    exact ⟨(name, target), by simp, rfl⟩
  · induction aliases with
    | nil => simp
    | cons a rest ih =>
      rintro ⟨b, hb, rfl⟩
      by_cases hrest : ∃ c ∈ rest, c.1 = b.1
      · obtain ⟨target, h⟩ := ih hrest
        exact ⟨target, stands_cons_iff.mpr (.inl h)⟩
      · have hnot : ∀ c ∈ rest, c.1 ≠ b.1 := fun c hc heq => hrest ⟨c, hc, heq⟩
        obtain rfl | hb := List.mem_cons.mp hb
        · exact ⟨b.2, stands_cons_iff.mpr (.inr ⟨rfl, hnot⟩)⟩
        · exact absurd rfl (hnot b hb)

theorem mem_insertAlias_iff {name target : String} {table : List (String × String)}
    (h : table.Pairwise (·.1 < ·.1)) {a : String × String} :
    a ∈ insertAlias name target table ↔ a = (name, target) ∨ a ∈ table ∧ a.1 ≠ name := by
  induction table with
  | nil => simp [insertAlias]
  | cons entry rest ih =>
    obtain ⟨n, t⟩ := entry
    obtain ⟨hhead, htail⟩ := List.pairwise_cons.mp h
    have hne : ∀ {b : String × String}, b ∈ rest → b.1 ≠ n := fun hb => (hhead _ hb).ne'
    rw [insertAlias]
    split
    · rename_i hlt
      rw [List.mem_cons]
      refine or_congr_right (iff_self_and.mpr fun ha => ?_)
      obtain rfl | ha := List.mem_cons.mp ha
      · exact hlt.ne'
      · exact (hlt.trans (hhead a ha)).ne'
    · split
      · rename_i heq
        subst heq
        rw [List.mem_cons, List.mem_cons]
        refine or_congr_right ⟨fun ha => ⟨.inr ha, hne ha⟩, ?_⟩
        rintro ⟨rfl | ha, hname⟩
        · exact absurd rfl hname
        · exact ha
      · rename_i hname
        rw [List.mem_cons, ih htail, List.mem_cons]
        constructor
        · rintro (rfl | rfl | ⟨ha, hother⟩)
          · exact .inr ⟨.inl rfl, fun heq => hname heq.symm⟩
          · exact .inl rfl
          · exact .inr ⟨.inr ha, hother⟩
        · rintro (rfl | ⟨rfl | ha, hother⟩)
          · exact .inr (.inl rfl)
          · exact .inl rfl
          · exact .inr (.inr ⟨ha, hother⟩)

theorem mem_sortAliases_iff {aliases : List (String × String)} {name target : String} :
    (name, target) ∈ sortAliases aliases ↔ Stands aliases name target := by
  have hfold : ∀ table : List (String × String), table.Pairwise (·.1 < ·.1) →
      ((name, target) ∈ aliases.foldl (fun table a => insertAlias a.1 a.2 table) table ↔
        Stands aliases name target ∨ (name, target) ∈ table ∧ ∀ a ∈ aliases, a.1 ≠ name) := by
    induction aliases with
    | nil => simp [Stands]
    | cons a rest ih =>
      intro table htable
      rw [List.foldl_cons, ih _ (pairwise_insertAlias htable), mem_insertAlias_iff htable,
        stands_cons_iff, List.forall_mem_cons, or_assoc]
      refine or_congr_right ?_
      constructor
      · rintro ⟨heq | ⟨hmem, hname⟩, hrest⟩
        · exact .inl ⟨heq.symm, hrest⟩
        · exact .inr ⟨hmem, fun heq => hname heq.symm, hrest⟩
      · rintro (⟨heq, hrest⟩ | ⟨hmem, hname, hrest⟩)
        · exact ⟨.inl heq.symm, hrest⟩
        · exact ⟨.inr ⟨hmem, fun heq => hname heq.symm⟩, hrest⟩
  rw [sortAliases, hfold [] List.Pairwise.nil]
  simp

/-! ## One alias -/

/-- The path starts with a segment that is the name of a field or of an alias. -/
def StartsKnown (fields : List Field) (aliases : List (String × String)) (target : String) :
    Prop :=
  ∃ head rest, IsSplit target (head :: rest) ∧ head ≠ "" ∧
    ((∃ f ∈ fields, f.name = head) ∨ ∃ a ∈ aliases, a.1 = head)

structure AliasKeeps (fields : List Field) (aliases : List (String × String))
    (name target : String) : Prop where
  unshadowed : ∀ f ∈ fields, f.name ≠ name
  known : StartsKnown fields aliases target

inductive AliasBreaks (schema : String) (fields : List Field) (aliases : List (String × String))
    (name target : String) : SchemaError → Prop
  | shadows (hname : ∃ f ∈ fields, f.name = name) :
      AliasBreaks schema fields aliases name target (.aliasShadows schema name)
  | unknown (hname : ∀ f ∈ fields, f.name ≠ name) (htarget : ¬ StartsKnown fields aliases target) :
      AliasBreaks schema fields aliases name target (.aliasTarget schema name target)

theorem headSegment_eq {path head : String} {rest : List String} (h : IsSplit path (head :: rest)) :
    headSegment path = head := by
  have hhead : ∀ c ∈ head.toList, (c != '.') = true := by
    intro c hc
    rw [bne_iff_ne]
    rintro rfl
    exact h.undotted head List.mem_cons_self hc
  apply String.toList_injective
  rw [headSegment, String.toList_ofList, ← h.joined, String.toList_intercalate, List.map_cons]
  cases rest with
  | nil =>
    rw [List.map_nil, List.intercalate_singleton]
    exact List.takeWhile_eq_self_iff.mpr hhead
  | cons next rest =>
    rw [List.map_cons, List.intercalate_cons_cons, List.append_assoc,
      List.takeWhile_append_of_pos hhead]
    simp

theorem startsKnown_iff {fields : List Field} {aliases : List (String × String)}
    {target : String} : StartsKnown fields aliases target ↔ headSegment target ≠ "" ∧
      ((∃ f ∈ fields, f.name = headSegment target) ∨ ∃ a ∈ aliases, a.1 = headSegment target) := by
  constructor
  · rintro ⟨head, rest, hsplit, h⟩
    rwa [headSegment_eq hsplit]
  · intro h
    have hsplit := isSplit_dotParts target
    obtain ⟨head, rest, hparts⟩ := List.exists_cons_of_ne_nil hsplit.ne_nil
    rw [hparts] at hsplit
    rw [headSegment_eq hsplit] at h
    exact ⟨head, rest, hsplit, h⟩

theorem exists_sortAliases_iff {aliases : List (String × String)} {name : String} :
    (∃ a ∈ sortAliases aliases, a.1 = name) ↔ ∃ a ∈ aliases, a.1 = name := by
  refine Iff.trans ?_ exists_stands_iff
  constructor
  · rintro ⟨⟨n, target⟩, hmem, rfl⟩
    exact ⟨target, mem_sortAliases_iff.mp hmem⟩
  · rintro ⟨target, hstands⟩
    exact ⟨(name, target), mem_sortAliases_iff.mpr hstands, rfl⟩

section

variable {schema : String} {fields : List Field} {aliases : List (String × String)}
  {name target : String} {e : SchemaError}

theorem headUnknown_iff : (headSegment target).isEmpty = true ∨
    (!(fields.any (·.name == headSegment target) ||
      (sortAliases aliases).any (·.1 == headSegment target))) = true ↔
        ¬ StartsKnown fields aliases target := by
  have hknown : (fields.any (·.name == headSegment target) ||
      (sortAliases aliases).any (·.1 == headSegment target)) = true ↔
        (∃ f ∈ fields, f.name = headSegment target) ∨
          ∃ a ∈ aliases, a.1 = headSegment target := by
    rw [Bool.or_eq_true, List.any_eq_true, List.any_eq_true, ← exists_sortAliases_iff]
    simp only [beq_iff_eq]
  rw [startsKnown_iff, String.isEmpty_iff, Bool.not_eq_true', ← Bool.not_eq_true, hknown,
    not_and_or, not_not]

theorem checkAlias_eq_ok_iff : checkAlias schema fields (sortAliases aliases) name target = .ok () ↔
    AliasKeeps fields aliases name target := by
  unfold checkAlias
  dsimp only
  rw [guard_eq_ok_iff, guard_eq_ok_iff, headUnknown_iff, not_not, Bool.not_eq_true,
    List.any_eq_false]
  simp only [beq_iff_eq, and_true]
  exact ⟨fun h => ⟨h.1, h.2⟩, fun h => ⟨h.unshadowed, h.known⟩⟩

theorem checkAlias_eq_error_iff :
    checkAlias schema fields (sortAliases aliases) name target = .error e ↔
      AliasBreaks schema fields aliases name target e := by
  have hshadow : fields.any (·.name == name) = true ↔ ∃ f ∈ fields, f.name = name := by
    simp [List.any_eq_true]
  unfold checkAlias
  dsimp only
  rw [guard_eq_error_iff, guard_eq_error_iff, headUnknown_iff, hshadow]
  constructor
  · rintro (⟨hname, rfl⟩ | ⟨hname, ⟨htarget, rfl⟩ | ⟨-, h⟩⟩)
    · exact .shadows hname
    · exact .unknown (fun f hf heq => hname ⟨f, hf, heq⟩) htarget
    · cases h
  · rintro (hname | ⟨hname, htarget⟩)
    · exact .inl ⟨hname, rfl⟩
    · exact .inr ⟨fun ⟨f, hf, heq⟩ => hname f hf heq, .inl ⟨htarget, rfl⟩⟩

end

end Schema

end RecordFilter
