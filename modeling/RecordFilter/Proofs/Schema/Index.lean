import RecordFilter.Proofs.Schema.Built

/-!
# The index of a schema

A schema as it is built in one pass: each field is checked and entered in an index of names, and the
aliases are checked against the index. The index finds what the list of fields holds.
-/

namespace RecordFilter

namespace Schema

/-- The places of fields by their names. -/
abbrev Index := Std.HashMap String Nat

/-- Checks fields, the first of which is at `place`, and enters each under its name. -/
def indexFields (schema : String) : Nat → Index → List Field → Except SchemaError Index
  | _, index, [] => .ok index
  | place, index, f :: rest =>
    if index.contains f.name then .error (.duplicateField schema f.name)
    else do
      checkField schema f
      indexFields schema (place + 1) (index.insert f.name place) rest

def checkIndexedAlias (schema : String) (index : Index) (aliases : List (String × String))
    (name target : String) : Except SchemaError Unit :=
  let head := headSegment target
  if index.contains name then .error (.aliasShadows schema name)
  else if head.isEmpty ∨ !(index.contains head || aliases.any (·.1 == head)) then
    .error (.aliasTarget schema name target)
  else .ok ()

structure Indexed where
  schema : Schema
  index : Index

namespace Indexed

def build (name : String) (fields : List Field) (aliases : List (String × String)) :
    Except SchemaError Indexed := do
  let sorted := sortAliases aliases
  let index ← indexFields name 0 ∅ fields
  sorted.forM fun a => checkIndexedAlias name index sorted a.1 a.2
  return ⟨Schema.mk name fields sorted, index⟩

def field? (x : Indexed) (name : String) : Option Field :=
  x.index[name]?.bind fun place => x.schema.fields[place]?

end Indexed

/-! ## What the index holds -/

/-- The index leads from a name to the field that has it. -/
def Lists (index : Index) (fields : List Field) : Prop :=
  ∀ name place, index[name]? = some place ↔ ∃ f : Field, fields[place]? = some f ∧ f.name = name

theorem lists_nil : Lists ∅ [] := by
  intro name place
  simp

theorem Lists.contains_eq {index : Index} {fields : List Field} (h : Lists index fields)
    (name : String) : index.contains name = fields.any (·.name == name) := by
  rw [Bool.eq_iff_iff, Std.HashMap.contains_iff_mem, ← Std.HashMap.isSome_getElem?_iff_mem,
    Option.isSome_iff_exists, List.any_eq_true]
  constructor
  · rintro ⟨place, hplace⟩
    obtain ⟨f, hf, hname⟩ := (h name place).mp hplace
    exact ⟨f, List.mem_of_getElem? hf, by simpa using hname⟩
  · rintro ⟨f, hf, hname⟩
    obtain ⟨place, hplace⟩ := List.mem_iff_getElem?.mp hf
    exact ⟨place, (h name place).mpr ⟨f, hplace, by simpa using hname⟩⟩

theorem Lists.insert {index : Index} {fields : List Field} (h : Lists index fields) {f : Field}
    (hf : index.contains f.name = false) :
    Lists (index.insert f.name fields.length) (fields ++ [f]) := by
  have hnew : ∀ g ∈ fields, g.name ≠ f.name := by
    rw [h.contains_eq] at hf
    simpa using hf
  intro name place
  rw [Std.HashMap.getElem?_insert]
  by_cases hname : f.name = name
  · subst hname
    rw [if_pos (by simp), Option.some.injEq]
    constructor
    · rintro rfl
      exact ⟨f, List.getElem?_concat_length, rfl⟩
    · rintro ⟨g, hg, hname⟩
      rw [List.getElem?_append] at hg
      split at hg
      · exact absurd hname (hnew g (List.mem_of_getElem? hg))
      · have hlast := (List.getElem?_eq_some_iff.mp hg).1
        simp only [List.length_singleton] at hlast
        omega
  · rw [if_neg (by simpa using hname), h name place]
    refine exists_congr fun g => and_congr_left fun hg => ?_
    rw [List.getElem?_append]
    split
    · rfl
    · rename_i hplace
      rw [List.getElem?_eq_none (not_lt.mp hplace)]
      refine iff_of_false nofun fun hlast => ?_
      have hmem := List.mem_of_getElem? hlast
      rw [List.mem_singleton] at hmem
      exact hname (hmem ▸ hg)

theorem indexFields_cases {schema : String} {index : Index} {before fs : List Field}
    {seen : List String} (h : Lists index before)
    (hseen : ∀ name, seen.contains name = before.any (·.name == name)) :
    (∃ e, indexFields schema before.length index fs = .error e ∧
        checkFields schema seen fs = .error e) ∨
      ∃ index', indexFields schema before.length index fs = .ok index' ∧
        checkFields schema seen fs = .ok () ∧ Lists index' (before ++ fs) := by
  induction fs generalizing index before seen with
  | nil => exact .inr ⟨index, rfl, rfl, by rwa [List.append_nil]⟩
  | cons f rest ih =>
    rw [indexFields, checkFields, h.contains_eq, ← hseen]
    cases hname : seen.contains f.name with
    | true => exact .inl ⟨_, rfl, rfl⟩
    | false =>
      cases hf : checkField schema f with
      | error e => exact .inl ⟨e, rfl, rfl⟩
      | ok u =>
        have hindex := h.insert (by rw [h.contains_eq, ← hseen, hname])
        have hnames : ∀ name, (f.name :: seen).contains name =
            (before ++ [f]).any (·.name == name) := by
          intro name
          rw [List.contains_cons, hseen, List.any_append, Bool.or_comm, BEq.comm]
          simp
        have hrest := ih hindex hnames
        rw [List.length_append, List.length_singleton, List.append_assoc] at hrest
        exact hrest

theorem checkIndexedAlias_eq {schema : String} {index : Index} {fields : List Field}
    (h : Lists index fields) (aliases : List (String × String)) (name target : String) :
    checkIndexedAlias schema index aliases name target =
      checkAlias schema fields aliases name target := by
  simp only [checkIndexedAlias, checkAlias, h.contains_eq]

theorem Indexed.build_cases (name : String) (fields : List Field)
    (aliases : List (String × String)) :
    (∃ e, Indexed.build name fields aliases = .error e ∧
        Schema.build name fields aliases = .error e) ∨
      ∃ x, Indexed.build name fields aliases = .ok x ∧
        Schema.build name fields aliases = .ok x.schema ∧ Lists x.index x.schema.fields := by
  unfold Indexed.build Schema.build
  dsimp only
  have hfields : (∃ e, indexFields name 0 ∅ fields = .error e ∧
        checkFields name [] fields = .error e) ∨
      ∃ index, indexFields name 0 ∅ fields = .ok index ∧
        checkFields name [] fields = .ok () ∧ Lists index fields :=
    indexFields_cases lists_nil fun _ => rfl
  obtain ⟨e, hindex, hcheck⟩ | ⟨index, hindex, hcheck, hlists⟩ := hfields
  · rw [hindex, hcheck]
    exact .inl ⟨e, rfl, rfl⟩
  · rw [hindex, hcheck]
    simp only [bind, Except.bind, checkIndexedAlias_eq hlists]
    cases (sortAliases aliases).forM fun a =>
        checkAlias name fields (sortAliases aliases) a.1 a.2 with
    | error e => exact .inl ⟨e, rfl, rfl⟩
    | ok u => exact .inr ⟨_, rfl, rfl, hlists⟩

theorem Indexed.field?_eq_some_iff {x : Indexed} (h : Lists x.index x.schema.fields) {name : String}
    {f : Field} : x.field? name = some f ↔ f ∈ x.schema.fields ∧ f.name = name := by
  unfold Indexed.field?
  rw [Option.bind_eq_some_iff]
  constructor
  · rintro ⟨place, hplace, hf⟩
    obtain ⟨g, hg, hname⟩ := (h name place).mp hplace
    obtain rfl := Option.some.inj (hg.symm.trans hf)
    exact ⟨List.mem_of_getElem? hf, hname⟩
  · rintro ⟨hf, hname⟩
    obtain ⟨place, hplace⟩ := List.mem_iff_getElem?.mp hf
    exact ⟨place, (h name place).mpr ⟨f, hplace, hname⟩, hplace⟩

end Schema

end RecordFilter
