import RecordFilter.Proofs.FreeText.Scope

/-!
# The names that address a field

Where every name can be a segment of a selector, the names along a chain of fields, joined by dots,
lead along the chain: a name is that of a field before it is that of an alias.
-/

namespace RecordFilter

namespace Schema

/-- The text can be one segment of a selector. -/
def IsName (name : String) : Prop := name ≠ "" ∧ '.' ∉ name.toList

instance (name : String) : Decidable (IsName name) :=
  inferInstanceAs (Decidable (name ≠ "" ∧ '.' ∉ name.toList))

/-- The fields have names that selectors can spell, in the schema and in those nested in it. -/
inductive IsAddressable : Schema → Prop
  | mk {s : Schema} (names : ∀ f ∈ s.fields, IsName f.name)
      (nested : ∀ f ∈ s.fields, ∀ inner, f.nested = some inner → IsAddressable inner) :
      IsAddressable s

variable {s inner : Schema} {max : UInt64} {propagate : List String} {f leaf : Field}
  {fields way : List Field} {names : List String} {d : Chain} {t : Target}

theorem IsAddressable.isName (h : s.IsAddressable) (hf : f ∈ s.fields) : IsName f.name := by
  obtain ⟨hnames, -⟩ := h
  exact hnames f hf

theorem IsAddressable.nested (h : s.IsAddressable) (hf : f ∈ s.fields)
    (hinner : f.nested = some inner) : inner.IsAddressable := by
  obtain ⟨-, hnested⟩ := h
  exact hnested f hf inner hinner

theorem Declares.isName (h : Declares s fields) (hs : s.IsAddressable) :
    ∀ f ∈ fields, IsName f.name := by
  induction h with
  | last hf => exact List.forall_mem_singleton.mpr (hs.isName hf)
  | next hf hinner _ ih =>
    exact List.forall_mem_cons.mpr ⟨hs.isName hf, ih (hs.nested hf hinner)⟩

theorem isSelector_intercalate (hnil : names ≠ []) (h : ∀ name ∈ names, IsName name) :
    IsSelector (".".intercalate names) names where
  split := ⟨hnil, fun name hname => (h name hname).2, rfl⟩
  nonempty hempty := (h "" hempty).1 rfl

theorem Declares.leads (h : Declares s (way ++ [leaf])) (hs : Built s) :
    ∃ t : Schema, leaf ∈ t.fields ∧
      Leads s ((way ++ [leaf]).map (·.name)) way.length way t [leaf.name] := by
  induction way generalizing s with
  | nil =>
    obtain ⟨hleaf⟩ | ⟨hleaf, -, -⟩ := h
    · exact ⟨s, hleaf, .here⟩
    · exact ⟨s, hleaf, .here⟩
  | cons f way ih =>
    obtain ⟨hf, inner, hinner, hrest⟩ := declares_behind (d := ⟨way, leaf⟩) |>.mp h
    obtain ⟨t, hleaf, hleads⟩ := ih hrest (hs.nested hf hinner)
    have hnested : f.kind.isNested = true := by rw [← hs.isSome_nested hf, hinner]; rfl
    have hkind : f.kind.isTerminal = false := by simpa [FieldKind.isNested] using hnested
    exact ⟨t, hleaf, .enter hf (FieldKind.isTerminal_eq_false_iff.mp hkind) hinner hleads⟩

theorem resolve_declares (hs : Built s) (h : Declares s (way ++ [leaf]))
    (hnames : ∀ f ∈ way ++ [leaf], IsName f.name) (hlength : (way ++ [leaf]).length ≤ max.toNat)
    (hkind : leaf.kind = .scalar ∨ leaf.kind = .elementCollection) :
    s.resolve max (".".intercalate ((way ++ [leaf]).map (·.name))) =
      .ok ⟨s.name, (way ++ [leaf]).map FieldOf.segment, leaf.declared⟩ := by
  have hheads : IsSelector _ ((way ++ [leaf]).map (·.name)) :=
    isSelector_intercalate (by simp) (List.forall_mem_map.mpr hnames)
  obtain ⟨t, hleaf, hleads⟩ := h.leads hs
  have hfound : Walks max max.toNat s _ (.ok (way ++ [leaf])) :=
    .found hleads (by simpa using hlength) hleaf hkind
  obtain ⟨p, hp, hpath⟩ := resolve_of_resolves_ok hs (.walks hheads hfound)
  rw [hp, hpath.unique (isPathOf_append s way leaf)]

theorem InScope.resolve_dotted (hd : InScope s max.toNat propagate d) (ht : d.EndsAt s.name [] t)
    (hs : Built s) (hnames : s.IsAddressable) : s.resolve max t.path.dotted = .ok t.path := by
  have hdotted : t.path.dotted = ".".intercalate (d.fields.map (·.name)) := by
    rw [ht.path, Path.dotted, List.nil_append, List.map_map]
    rfl
  rw [hdotted, ht.path]
  exact resolve_declares hs hd.declared (hd.declared.isName hnames) hd.length_le hd.kind

end Schema

end RecordFilter
