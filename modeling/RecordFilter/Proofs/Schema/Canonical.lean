import RecordFilter.Proofs.Schema.Addressing

/-!
# Canonical selectors

The names on the way of a resolved path are a selector of their own. They lead along the same
fields without any alias, so they resolve to the same path, in no more steps than before.
-/

namespace RecordFilter

theorem IsSelector.isName {selector : String} {heads : List String}
    (h : IsSelector selector heads) : ∀ head ∈ heads, Schema.IsName head :=
  fun head hhead => ⟨fun hempty => h.nonempty (hempty ▸ hhead), h.split.undotted head hhead⟩

namespace Schema

variable {max : UInt64} {n : Nat} {selector : String} {s t : Schema} {heads left : List String}
  {way : List Field} {p : Path}

theorem Leads.direct (h : Leads s heads n way t left) :
    Leads s (way.map (·.name) ++ left) way.length way t left ∧ way.length ≤ n := by
  -- An alias that is expanded is a step of the first walk only.
  induction h with
  | here => exact ⟨.here, Nat.le_refl 0⟩
  | enter hf hkind hinner _ ih =>
    exact ⟨.enter hf hkind hinner ih.1, Nat.succ_le_succ ih.2⟩
  | expand _ _ _ _ ih => exact ⟨ih.1, Nat.le_succ_of_le ih.2⟩

theorem Leads.isName (h : Leads s heads n way t left) (hheads : ∀ head ∈ heads, IsName head) :
    (∀ f ∈ way, IsName f.name) ∧ ∀ name ∈ left, IsName name := by
  induction h with
  | here => exact ⟨nofun, hheads⟩
  | enter _ _ _ _ ih =>
    obtain ⟨hname, hrest⟩ := List.forall_mem_cons.mp hheads
    obtain ⟨hway, hleft⟩ := ih hrest
    exact ⟨List.forall_mem_cons.mpr ⟨hname, hway⟩, hleft⟩
  | expand _ _ hparts _ ih =>
    obtain ⟨-, hrest⟩ := List.forall_mem_cons.mp hheads
    exact ih (List.forall_mem_append.mpr ⟨hparts.isName, hrest⟩)

theorem Resolves.isName {fields : List Field} (h : Resolves s max selector (.ok fields)) :
    ∀ name ∈ fields.map (·.name), IsName name := by
  obtain - | ⟨hheads, hwalks⟩ := h
  obtain ⟨hway, -, -, -⟩ | - := hwalks
  obtain ⟨hnames, hlast⟩ := hway.isName hheads.isName
  rw [List.map_append, List.forall_mem_append, List.forall_mem_map]
  exact ⟨hnames, hlast⟩

theorem Resolves.direct {fields : List Field} (h : Resolves s max selector (.ok fields)) :
    Resolves s max (".".intercalate (fields.map (·.name))) (.ok fields) := by
  have hnames := h.isName
  obtain - | ⟨hheads, hwalks⟩ := h
  obtain @⟨n, way, t, f, hway, hn, hf, hkind⟩ | - := hwalks
  obtain ⟨hleads, hle⟩ := hway.direct
  refine .walks (isSelector_intercalate (by simp) hnames) ?_
  rw [List.map_append]
  exact .found hleads (Nat.le_trans (Nat.succ_le_succ hle) hn) hf hkind

theorem IsPathOf.dotted {fields : List Field} (h : IsPathOf s fields p) :
    p.dotted = ".".intercalate (fields.map (·.name)) := by
  rw [Path.dotted, h.segments, List.map_map]
  rfl

theorem resolve_path (hs : Built s) (h : s.resolve max selector = .ok p) :
    s.resolve max p.dotted = .ok p := by
  obtain ⟨fields, hfields, hpath⟩ := exists_resolves_of_resolve_ok hs h
  obtain ⟨q, hq, hqpath⟩ := resolve_of_resolves_ok hs hfields.direct
  rw [hpath.dotted, hq, hqpath.unique hpath]

end Schema

end RecordFilter
