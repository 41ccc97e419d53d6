import RecordFilter.Proofs.Schema.AliasRules
import RecordFilter.Proofs.Schema.Index
import RecordFilter.Proofs.Schema.Walker

/-!
# What building a schema comes to

A schema is built from fields and aliases that keep all rules, and otherwise it is refused for the
first rule that is broken. In a schema that was built, each name leads to one field or to one alias,
and a walk never lacks a nested schema where names are left to follow.
-/

namespace RecordFilter

namespace Schema

/-! ## Fields and aliases together -/

structure KeepsRules (fields : List Field) (aliases : List (String × String)) : Prop where
  ofFields : FieldsKeep fields
  ofAliases : ∀ name target, Stands aliases name target → AliasKeeps fields aliases name target

/-- The first rule that is broken: by the fields in the order of their declaration, and if there is
none, by the aliases in the order of their names. -/
inductive BreaksFirst (schema : String) (fields : List Field) (aliases : List (String × String))
    (e : SchemaError) : Prop
  | field {before after : List Field} {f : Field} (hfields : fields = before ++ f :: after)
      (hbefore : FieldsKeep before) (h : NextBreaks schema before f e)
  | alias {name target : String} (hfields : FieldsKeep fields)
      (hstands : Stands aliases name target)
      (hbefore : ∀ n t, Stands aliases n t → n < name → AliasKeeps fields aliases n t)
      (h : AliasBreaks schema fields aliases name target e)

section

variable {name : String} {fields : List Field} {aliases : List (String × String)} {e : SchemaError}

theorem build_eq_ok_iff_keeps {s : Schema} : build name fields aliases = .ok s ↔
    KeepsRules fields aliases ∧ s = mk name fields (sortAliases aliases) := by
  rw [build_eq_ok_iff, checkFields_eq_ok_iff_keep, ← and_assoc]
  refine and_congr_left fun _ => ?_
  constructor
  · rintro ⟨hfields, haliases⟩
    refine ⟨hfields, fun n t hstands => ?_⟩
    exact checkAlias_eq_ok_iff.mp (haliases (n, t) (mem_sortAliases_iff.mpr hstands))
  · intro h
    refine ⟨h.ofFields, fun a ha => checkAlias_eq_ok_iff.mpr ?_⟩
    exact h.ofAliases a.1 a.2 (mem_sortAliases_iff.mp ha)

theorem checkAliases_eq_error_iff :
    (sortAliases aliases).forM (fun a => checkAlias name fields (sortAliases aliases) a.1 a.2) =
        .error e ↔
      ∃ n target, Stands aliases n target ∧
        (∀ m t, Stands aliases m t → m < n → AliasKeeps fields aliases m t) ∧
          AliasBreaks name fields aliases n target e := by
  have hsorted := pairwise_sortAliases aliases
  rw [forM_eq_error_iff]
  constructor
  · rintro ⟨before, ⟨n, target⟩, after, hsplit, hbefore, ha⟩
    refine ⟨n, target, mem_sortAliases_iff.mp (by simp [hsplit]), fun m t hstands hlt => ?_,
      checkAlias_eq_error_iff.mp ha⟩
    have hmem := mem_sortAliases_iff.mpr hstands
    rw [hsplit] at hsorted hmem
    obtain ⟨-, hbehind, -⟩ := List.pairwise_append.mp hsorted
    obtain hmem | hmem := List.mem_append.mp hmem
    · exact checkAlias_eq_ok_iff.mp (hbefore _ hmem)
    · obtain heq | hmem := List.mem_cons.mp hmem
      · cases heq
        exact absurd hlt (lt_irrefl _)
      · exact absurd ((List.pairwise_cons.mp hbehind).1 _ hmem) hlt.asymm
  · rintro ⟨n, target, hstands, hbefore, ha⟩
    obtain ⟨before, after, hsplit⟩ := List.append_of_mem (mem_sortAliases_iff.mpr hstands)
    refine ⟨before, (n, target), after, hsplit, fun b hb => ?_, checkAlias_eq_error_iff.mpr ha⟩
    rw [hsplit] at hsorted
    have hlt := (List.pairwise_append.mp hsorted).2.2 b hb (n, target) List.mem_cons_self
    have hmem : b ∈ sortAliases aliases := by
      rw [hsplit]
      exact List.mem_append_left _ hb
    exact checkAlias_eq_ok_iff.mpr (hbefore b.1 b.2 (mem_sortAliases_iff.mp hmem) hlt)

theorem build_eq_error_iff :
    build name fields aliases = .error e ↔ BreaksFirst name fields aliases e := by
  unfold build
  dsimp only
  rw [bind_eq_error_iff, checkFields_eq_error_iff]
  simp only [bind_eq_error_iff, checkAliases_eq_error_iff]
  constructor
  · rintro (⟨before, f, after, hfields, hbefore, h⟩ | ⟨u, hfields, h | ⟨-, -, h⟩⟩)
    · exact .field hfields hbefore h
    · obtain ⟨n, target, hstands, hbefore, h⟩ := h
      exact .alias (checkFields_eq_ok_iff_keep.mp hfields) hstands hbefore h
    · cases h
  · rintro (⟨hfields, hbefore, h⟩ | ⟨hfields, hstands, hbefore, h⟩)
    · exact .inl ⟨_, _, _, hfields, hbefore, h⟩
    · exact .inr ⟨(), checkFields_eq_ok_iff_keep.mpr hfields, .inl ⟨_, _, hstands, hbefore, h⟩⟩

end

/-! ## Walks -/

namespace Walker

variable {max : UInt64} {w w' : Walker}

theorem built_of_turn (hw : Built w.schema) (h : w.turn max = .goesOn w') : Built w'.schema := by
  unfold turn at h
  split at h
  · cases h
  split at h
  · cases h
  split at h
  · cases h
  split at h
  · split at h
    · cases h
    split at h
    · cases h
    · cases h
      exact hw
  · rename_i f hf
    dsimp only at h
    split at h
    · split at h <;> cases h
    · split at h
      · rename_i hnested _
        cases h
        exact hw.nested (hw.field?_eq_some_iff.mp hf).1 hnested
      · cases h

theorem built_of_turns {k : Nat} (hw : Built w.schema) (h : w.turns max k = .goesOn w') :
    Built w'.schema := by
  induction k generalizing w with
  | zero =>
    cases h
    exact hw
  | succ k ih =>
    rw [turns] at h
    split at h
    · rename_i next hturn
      exact ih (built_of_turn hw hturn) h
    · rename_i hstop
      exact absurd h (hstop w')

theorem pending_of_unterminated (hw : Built w.schema) {field owner : String} {kind : FieldKind}
    (h : w.turn max = .returns (.error (.unterminated field owner kind))) :
    w.pending = [field] := by
  obtain ⟨schema, pending, segments, steps⟩ := w
  unfold turn at h
  dsimp only at hw h ⊢
  cases pending with
  | nil => cases h
  | cons name rest =>
    dsimp only at h
    split at h
    · cases h
    split at h
    · cases h
    split at h
    · split at h
      · cases h
      split at h
      · rename_i hsplit
        cases h
        cases (splitSelector_eq_error_iff.mp hsplit).1
      · cases h
    · rename_i f hf
      obtain ⟨hmem, rfl⟩ := hw.field?_eq_some_iff.mp hf
      split at h
      · split at h <;> cases h
      · rename_i hkind
        have hnested := hw.isSome_nested hmem
        rw [FieldKind.isNested, Bool.eq_false_of_not_eq_true hkind, Bool.not_false,
          Option.isSome_iff_exists] at hnested
        obtain ⟨inner, hinner⟩ := hnested
        rw [hinner] at h
        cases rest with
        | nil =>
          cases h
          rfl
        | cons next rest => cases h

theorem exists_turn_of_turns {k : Nat} {r : Except PathError (List Segment × FieldType)}
    (h : w.turns max k = .returns r) :
    ∃ j w', w.turns max j = .goesOn w' ∧ w'.turn max = .returns r := by
  induction k generalizing w with
  | zero => cases h
  | succ k ih =>
    rw [turns] at h
    split at h
    · rename_i next hturn
      obtain ⟨j, w', hj, hlast⟩ := ih h
      exact ⟨j + 1, w', by rw [turns, hturn]; exact hj, hlast⟩
    · exact ⟨0, w, rfl, h⟩

/-- An error of a selector without empty segments is that of some turn of its walk, unless the count
of its steps overflows. -/
theorem exists_turn_of_resolve {s : Schema} {selector : String} {heads : List String}
    {e : PathError} (hheads : splitSelector selector = .ok heads)
    (h : s.resolve max selector = .error e) (he : e ≠ .overflow) :
    ∃ k w, (start s heads).turns max k = .goesOn w ∧ w.turn max = .returns (.error e) := by
  obtain ⟨r, hturns, hresolve⟩ := turns_start s max (splitSelector_eq_ok_iff.mp hheads)
  obtain rfl : r = .error e := map_eq_error_iff.mp (hresolve.symm.trans h)
  rcases Turn.ofOutcome_cases (.error e) with ⟨hoverflow, -⟩ | ⟨-, hreturns⟩
  · exact absurd (Except.error.inj hoverflow) he
  · exact exists_turn_of_turns (hturns.trans hreturns)

end Walker

section

variable {s : Schema} {max : UInt64} {field owner : String} {kind : FieldKind}

theorem Built.pending_of_turns (hs : Built s) {heads : List String} {k : Nat} {w : Walker}
    (hturns : (Walker.start s heads).turns max k = .goesOn w)
    (hturn : w.turn max = .returns (.error (.unterminated field owner kind))) :
    w.pending = [field] :=
  Walker.pending_of_unterminated (Walker.built_of_turns hs hturns) hturn

theorem Built.exists_pending_of_resolve (hs : Built s) {selector : String}
    (h : s.resolve max selector = .error (.unterminated field owner kind)) :
    ∃ heads k w, splitSelector selector = .ok heads ∧
      (Walker.start s heads).turns max k = .goesOn w ∧ w.pending = [field] := by
  cases hheads : splitSelector selector with
  | error e =>
    obtain ⟨rfl, -⟩ := splitSelector_eq_error_iff.mp hheads
    rw [resolve, hheads] at h
    cases h
  | ok heads =>
    obtain ⟨k, w, hturns, hturn⟩ := Walker.exists_turn_of_resolve hheads h (by simp)
    exact ⟨heads, k, w, rfl, hturns, hs.pending_of_turns hturns hturn⟩

end

/-! ## The theorem -/

/-- What is known of a schema that was built from these fields and aliases. -/
structure IsBuiltFrom (name : String) (fields : List Field) (aliases : List (String × String))
    (s : Schema) : Prop where
  name_eq : s.name = name
  fields_eq : s.fields = fields
  field? : ∀ n f, s.field? n = some f ↔ f ∈ fields ∧ f.name = n
  alias? : ∀ n target, s.alias? n = some target ↔ Stands aliases n target
  /-- No name is both a field and an alias. -/
  apart : ∀ n, s.field? n = none ∨ s.alias? n = none
  /-- The index finds the same fields. -/
  indexed : ∃ index, Indexed.build name fields aliases = .ok ⟨s, index⟩ ∧
    ∀ n, Indexed.field? ⟨s, index⟩ n = s.field? n
  /-- A turn of a walk that lacks a nested schema has only the last name before it. -/
  ends : (∀ f ∈ fields, ∀ inner, f.nested = some inner → Built inner) →
    ∀ max heads k w field owner kind, (Walker.start s heads).turns max k = .goesOn w →
      w.turn max = .returns (.error (.unterminated field owner kind)) → w.pending = [field]
  /-- So a selector is refused for that only where it ends. -/
  unterminated : (∀ f ∈ fields, ∀ inner, f.nested = some inner → Built inner) →
    ∀ max selector field owner kind,
      s.resolve max selector = .error (.unterminated field owner kind) →
        ∃ heads k w, splitSelector selector = .ok heads ∧
          (Walker.start s heads).turns max k = .goesOn w ∧ w.pending = [field]

section

variable {name : String} {fields : List Field} {aliases : List (String × String)} {s : Schema}

theorem isBuiltFrom_of_build (h : build name fields aliases = .ok s) :
    IsBuiltFrom name fields aliases s := by
  obtain ⟨hkeeps, rfl⟩ := build_eq_ok_iff_keeps.mp h
  have hfield : ∀ n f, (mk name fields (sortAliases aliases)).field? n = some f ↔
      f ∈ fields ∧ f.name = n :=
    fun n f => field?_eq_some_iff_of_nodup (s := mk name fields (sortAliases aliases))
      hkeeps.ofFields.distinct
  have halias : ∀ n target, (mk name fields (sortAliases aliases)).alias? n = some target ↔
      Stands aliases n target :=
    fun _ _ => (lookup_eq_some_iff_mem (pairwise_sortAliases aliases)).trans mem_sortAliases_iff
  refine ⟨rfl, rfl, hfield, halias, fun n => ?_, ?_, ?_, ?_⟩
  · rw [or_iff_not_imp_right, ← ne_eq, Option.ne_none_iff_exists']
    rintro ⟨target, htarget⟩
    have hunshadowed := (hkeeps.ofAliases n target ((halias n target).mp htarget)).unshadowed
    exact field?_eq_none_iff.mpr hunshadowed
  · obtain ⟨e, -, he⟩ | ⟨⟨s, index⟩, hx, hs, hlists⟩ := Indexed.build_cases name fields aliases
    · cases h.symm.trans he
    · obtain rfl := Except.ok.inj (h.symm.trans hs)
      refine ⟨index, hx, fun n => Option.ext fun f => ?_⟩
      exact (Indexed.field?_eq_some_iff hlists).trans (hfield n f).symm
  · intro hnested _ _ _ _ _ _ _ hturns hturn
    exact (Built.of_build h hnested).pending_of_turns hturns hturn
  · intro hnested _ _ _ _ _ hresolve
    exact (Built.of_build h hnested).exists_pending_of_resolve hresolve

theorem indexed_build_map (name : String) (fields : List Field) (aliases : List (String × String)) :
    (Indexed.build name fields aliases).map (·.schema) = build name fields aliases := by
  obtain ⟨e, hx, he⟩ | ⟨x, hx, hs, -⟩ := Indexed.build_cases name fields aliases
  · rw [hx, he]
    rfl
  · rw [hx, hs]
    rfl

end

/-- A schema is built from fields and aliases that keep the rules, with an index or without. Else
the first rule that is broken is reported. -/
theorem build_outcome (name : String) (fields : List Field) (aliases : List (String × String)) :
    (Indexed.build name fields aliases).map (·.schema) = build name fields aliases ∧
      ((∃ s, build name fields aliases = .ok s) ↔ KeepsRules fields aliases) ∧
      (∀ e, build name fields aliases = .error e ↔ BreaksFirst name fields aliases e) ∧
      ∀ s, build name fields aliases = .ok s → IsBuiltFrom name fields aliases s := by
  refine ⟨indexed_build_map name fields aliases, ?_, fun _ => build_eq_error_iff,
    fun _ => isBuiltFrom_of_build⟩
  simp only [build_eq_ok_iff_keeps, exists_and_left, exists_eq, and_true]

example : build "Guest"
    [⟨"id", none, .scalar .i64, .many, .scalar, none⟩,
      ⟨"id", none, .scalar .i64, .single, .scalar, none⟩] [("id", "")] =
    .error (.cardinality "Guest" "id" .scalar .many) := rfl

def parcelFields : List Field :=
  [⟨"to", none, .record "Customer", .single, .embedded, some customers⟩,
    ⟨"orders", none, .record "Order", .many, .association, some orders⟩,
    ⟨"tags", none, .scalar .text, .many, .elementCollection, none⟩]

def parcelAliases : List (String × String) :=
  [("who", "tags"), ("buyers", "orders.buyer"), ("who", "to.name")]

theorem parcels_built : KeepsRules parcelFields parcelAliases ∧
    ∃ s, build "Parcel" parcelFields parcelAliases = .ok s ∧
      s.alias? "who" = some "to.name" ∧ ¬ Stands parcelAliases "who" "tags" ∧
      (∃ index, Indexed.build "Parcel" parcelFields parcelAliases = .ok ⟨s, index⟩) := by
  obtain ⟨-, hkeeps, -, hbuilt⟩ := build_outcome "Parcel" parcelFields parcelAliases
  have h : build "Parcel" parcelFields parcelAliases =
    .ok (.mk "Parcel" parcelFields [("buyers", "orders.buyer"), ("who", "to.name")]) := rfl
  have hs := hbuilt _ h
  obtain ⟨index, hindex, -⟩ := hs.indexed
  refine ⟨hkeeps.mp ⟨_, h⟩, _, h, rfl, fun hstands => ?_, index, hindex⟩
  exact absurd ((hs.alias? "who" "tags").mpr hstands) (by decide)

end Schema

end RecordFilter
