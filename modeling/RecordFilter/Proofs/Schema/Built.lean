import Mathlib.Data.List.Nodup
import Mathlib.Data.String.Basic
import RecordFilter.Proofs.Yields
import RecordFilter.Schema.Basic

/-!
# Schemas that were built

A schema is built when its own fields and aliases passed the rules, and so did those of every schema
nested in it. In such a schema a name is that of at most one field or of at most one alias.
-/

namespace RecordFilter

namespace Schema

/-! ## What passing the checks says -/

theorem checkFields_eq_ok_iff {schema : String} {seen : List String} {fs : List Field} :
    checkFields schema seen fs = .ok () ↔
      (∀ f ∈ fs, checkField schema f = .ok ()) ∧ (fs.map (·.name)).Nodup ∧
        ∀ f ∈ fs, f.name ∉ seen := by
  induction fs generalizing seen with
  | nil => simp [checkFields]
  | cons f rest ih =>
    rw [checkFields]
    by_cases hseen : f.name ∈ seen
    · simp [hseen]
    · rw [if_neg (by simpa using hseen)]
      cases hf : checkField schema f with
      | error e => simp [bind, Except.bind, hf]
      | ok u =>
        rw [List.forall_mem_cons, List.forall_mem_cons, List.map_cons, List.nodup_cons]
        show checkFields schema (f.name :: seen) rest = .ok () ↔ _
        rw [ih]
        simp only [hf, List.mem_cons, List.mem_map, not_or, true_and, hseen, not_false_eq_true]
        constructor
        · rintro ⟨hrest, hnodup, hnames⟩
          refine ⟨hrest, ⟨?_, hnodup⟩, fun g hg => (hnames g hg).2⟩
          rintro ⟨g, hg, hname⟩
          exact (hnames g hg).1 hname
        · rintro ⟨hrest, ⟨hfresh, hnodup⟩, hnames⟩
          exact ⟨hrest, hnodup, fun g hg => ⟨fun hname => hfresh ⟨g, hg, hname⟩, hnames g hg⟩⟩

theorem build_eq_ok_iff {name : String} {fields : List Field} {aliases : List (String × String)}
    {s : Schema} :
    build name fields aliases = .ok s ↔
      checkFields name [] fields = .ok () ∧
        (∀ a ∈ sortAliases aliases,
          checkAlias name fields (sortAliases aliases) a.1 a.2 = .ok ()) ∧
        s = mk name fields (sortAliases aliases) := by
  have haliases : (sortAliases aliases).forM
        (fun a => checkAlias name fields (sortAliases aliases) a.1 a.2) = .ok () ↔
      ∀ a ∈ sortAliases aliases,
        checkAlias name fields (sortAliases aliases) a.1 a.2 = .ok () := forM_eq_ok_iff
  rw [← haliases]
  unfold build
  dsimp only
  cases checkFields name [] fields with
  | error e => simp [bind, Except.bind]
  | ok u =>
    cases (sortAliases aliases).forM fun a =>
        checkAlias name fields (sortAliases aliases) a.1 a.2 with
    | error e => simp [bind, Except.bind]
    | ok u => simp [bind, Except.bind, pure, Except.pure, eq_comm]

theorem checkField_eq_ok_iff {schema : String} {f : Field} :
    checkField schema f = .ok () ↔ f.nested.isSome = f.kind.isNested ∧
      f.kind.allows f.cardinality = true ∧
        (f.kind = .elementCollection → f.declared.isElement = true) := by
  unfold checkField
  simp only [guard_eq_ok_iff, and_true, Bool.not_eq_true', Bool.not_eq_false]
  rw [← and_assoc]
  refine and_congr ?_ (and_congr Iff.rfl ?_)
  · cases f.kind.isNested <;> cases f.nested <;> simp
  · simp

theorem ne_of_checkAlias {schema name target : String} {fields : List Field}
    {aliases : List (String × String)} (h : checkAlias schema fields aliases name target = .ok ()) :
    ∀ f ∈ fields, f.name ≠ name := by
  unfold checkAlias at h
  split at h
  · cases h
  · rename_i hany
    simpa [List.any_eq_true] using hany

/-! ## Sorted aliases -/

theorem mem_insertAlias {name target : String} {table : List (String × String)}
    {a : String × String} (h : a ∈ insertAlias name target table) :
    a = (name, target) ∨ a ∈ table := by
  induction table with
  | nil => simpa [insertAlias] using h
  | cons entry rest ih =>
    obtain ⟨n, t⟩ := entry
    rw [insertAlias] at h
    split at h
    · simpa using h
    · split at h
      · rcases List.mem_cons.mp h with h | h
        · exact Or.inl h
        · exact Or.inr (List.mem_cons_of_mem _ h)
      · rcases List.mem_cons.mp h with h | h
        · exact Or.inr (h ▸ List.mem_cons_self)
        · exact (ih h).imp_right (List.mem_cons_of_mem _)

theorem pairwise_insertAlias {name target : String} {table : List (String × String)}
    (h : table.Pairwise (·.1 < ·.1)) :
    (insertAlias name target table).Pairwise (·.1 < ·.1) := by
  induction table with
  | nil => simp [insertAlias]
  | cons entry rest ih =>
    obtain ⟨n, t⟩ := entry
    obtain ⟨hhead, htail⟩ := List.pairwise_cons.mp h
    rw [insertAlias]
    split
    · rename_i hlt
      refine List.pairwise_cons.mpr ⟨?_, h⟩
      intro a ha
      rcases List.mem_cons.mp ha with rfl | ha
      · exact hlt
      · exact lt_trans hlt (hhead a ha)
    · rename_i hnot
      split
      · rename_i heq
        subst heq
        exact List.pairwise_cons.mpr ⟨hhead, htail⟩
      · rename_i hne
        refine List.pairwise_cons.mpr ⟨?_, ih htail⟩
        intro a ha
        rcases mem_insertAlias ha with rfl | ha
        · exact lt_of_le_of_ne (not_lt.mp hnot) (Ne.symm hne)
        · exact hhead a ha

theorem pairwise_sortAliases (aliases : List (String × String)) :
    (sortAliases aliases).Pairwise (·.1 < ·.1) := by
  have hfold : ∀ (table : List (String × String)), table.Pairwise (·.1 < ·.1) →
      (aliases.foldl (fun table a => insertAlias a.1 a.2 table) table).Pairwise (·.1 < ·.1) := by
    induction aliases with
    | nil => exact fun _ h => h
    | cons a rest ih => exact fun table h => ih _ (pairwise_insertAlias h)
  exact hfold [] List.Pairwise.nil

theorem lookup_eq_some_iff_mem {table : List (String × String)}
    (h : table.Pairwise (·.1 < ·.1)) {name target : String} :
    table.lookup name = some target ↔ (name, target) ∈ table := by
  induction table with
  | nil => simp
  | cons entry rest ih =>
    obtain ⟨n, t⟩ := entry
    obtain ⟨hhead, htail⟩ := List.pairwise_cons.mp h
    rw [List.lookup_cons, List.mem_cons, Prod.mk.injEq]
    by_cases heq : name = n
    · subst heq
      have hnot : (name, target) ∉ rest := fun hmem => lt_irrefl _ (hhead (name, target) hmem)
      simp [hnot, eq_comm]
    · have hbeq : (name == n) = false := by simpa using heq
      simp [hbeq, heq, ih htail]

/-! ## Built schemas -/

theorem field?_eq_some_iff_of_nodup {s : Schema} (h : (s.fields.map (·.name)).Nodup)
    {name : String} {f : Field} : s.field? name = some f ↔ f ∈ s.fields ∧ f.name = name := by
  constructor
  · intro hf
    exact ⟨List.mem_of_find?_eq_some hf, by simpa using List.find?_some hf⟩
  · rintro ⟨hmem, rfl⟩
    cases hfind : s.field? f.name with
    | none => exact absurd (List.find?_eq_none.mp hfind f hmem) (by simp)
    | some g =>
      have hname : g.name = f.name := by simpa using List.find?_some hfind
      have hg : g ∈ s.fields := List.mem_of_find?_eq_some hfind
      rw [List.inj_on_of_nodup_map h hg hmem hname]

inductive Built : Schema → Prop
  | of_build {name : String} {fields : List Field} {aliases : List (String × String)} {s : Schema}
      (h : build name fields aliases = .ok s)
      (nested : ∀ f ∈ fields, ∀ inner, f.nested = some inner → Built inner) : Built s

namespace Built

variable {s : Schema}

theorem of_eq (h : build s.name s.fields s.aliases = .ok s)
    (nested : ∀ f ∈ s.fields, ∀ inner, f.nested = some inner → Built inner) : Built s :=
  .of_build h nested

theorem nested (h : Built s) {f : Field} (hf : f ∈ s.fields) {inner : Schema}
    (hinner : f.nested = some inner) : Built inner := by
  obtain ⟨hbuild, hnested⟩ := h
  obtain ⟨-, -, rfl⟩ := build_eq_ok_iff.mp hbuild
  exact hnested f hf inner hinner

theorem isSome_nested (h : Built s) {f : Field} (hf : f ∈ s.fields) :
    f.nested.isSome = f.kind.isNested := by
  obtain ⟨hbuild, -⟩ := h
  obtain ⟨hfields, -, rfl⟩ := build_eq_ok_iff.mp hbuild
  exact (checkField_eq_ok_iff.mp ((checkFields_eq_ok_iff.mp hfields).1 f hf)).1

theorem isElement (h : Built s) {f : Field} (hf : f ∈ s.fields)
    (hkind : f.kind = .elementCollection) : f.declared.isElement = true := by
  obtain ⟨hbuild, -⟩ := h
  obtain ⟨hfields, -, rfl⟩ := build_eq_ok_iff.mp hbuild
  exact (checkField_eq_ok_iff.mp ((checkFields_eq_ok_iff.mp hfields).1 f hf)).2.2 hkind

theorem nodup_names (h : Built s) : (s.fields.map (·.name)).Nodup := by
  obtain ⟨hbuild, -⟩ := h
  obtain ⟨hfields, -, rfl⟩ := build_eq_ok_iff.mp hbuild
  exact (checkFields_eq_ok_iff.mp hfields).2.1

theorem field?_eq_some_iff (h : Built s) {name : String} {f : Field} :
    s.field? name = some f ↔ f ∈ s.fields ∧ f.name = name :=
  field?_eq_some_iff_of_nodup h.nodup_names

theorem field?_name (h : Built s) {f : Field} (hf : f ∈ s.fields) : s.field? f.name = some f :=
  h.field?_eq_some_iff.mpr ⟨hf, rfl⟩

theorem alias?_eq_some_iff (h : Built s) {name target : String} :
    s.alias? name = some target ↔ (name, target) ∈ s.aliases := by
  obtain ⟨hbuild, -⟩ := h
  obtain ⟨-, -, rfl⟩ := build_eq_ok_iff.mp hbuild
  exact lookup_eq_some_iff_mem (pairwise_sortAliases _)

theorem ne_alias (h : Built s) {f : Field} (hf : f ∈ s.fields) {a : String × String}
    (ha : a ∈ s.aliases) : f.name ≠ a.1 := by
  obtain ⟨hbuild, -⟩ := h
  obtain ⟨-, haliases, rfl⟩ := build_eq_ok_iff.mp hbuild
  exact ne_of_checkAlias (haliases a ha) f hf

end Built

theorem field?_eq_none_iff {s : Schema} {name : String} :
    s.field? name = none ↔ ∀ f ∈ s.fields, f.name ≠ name := by
  simp [field?, List.find?_eq_none]

theorem alias?_eq_none_iff {s : Schema} {name : String} :
    s.alias? name = none ↔ ∀ a ∈ s.aliases, a.1 ≠ name := by
  rw [alias?, List.lookup_eq_none_iff]
  simp only [bne_iff_ne, ne_comm]

end Schema

end RecordFilter
