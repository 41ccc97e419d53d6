import Mathlib.Data.List.Forall2
import RecordFilter.FreeText.Basic
import RecordFilter.Proofs.Schema.Resolution

/-!
# What a keyword searches

A keyword searches the fields at the end of some chains of fields, each of which leads to the next.
Which chains these are is said without walking through the schema, and the targets of a search are
just these chains, in the order in which the schema declares them, depth first.
-/

namespace RecordFilter

open RecordFilter.Text

/-! ## Chains of fields -/

/-- The field `leaf`, and the fields that lead to it. -/
structure Chain where
  way : List Field
  leaf : Field

namespace Chain

def fields (d : Chain) : List Field := d.way ++ [d.leaf]

def behind (f : Field) (d : Chain) : Chain := ⟨f :: d.way, d.leaf⟩

theorem fields_behind (f : Field) (d : Chain) : (d.behind f).fields = f :: d.fields := rfl

end Chain

/-- The classes of types that keywords search. -/
def searchable : List Family := [.textual, .identifier, .bool, .year, .enumeration, .numeric]

namespace Schema

/-- The first of the fields is a field of `s`, and each of the others is a field of the schema that
is nested in the one before. -/
inductive Declares : Schema → List Field → Prop
  | last {s : Schema} {f : Field} (hf : f ∈ s.fields) : Declares s [f]
  | next {s inner : Schema} {f : Field} {rest : List Field} (hf : f ∈ s.fields)
      (hinner : f.nested = some inner) (hrest : Declares inner rest) : Declares s (f :: rest)

/-- A keyword that may follow the associations of these names searches the end of the chain. -/
structure InScope (root : Schema) (maxDepth : Nat) (propagate : List String) (d : Chain) :
    Prop where
  declared : Declares root d.fields
  length_le : d.fields.length ≤ maxDepth
  kind : d.leaf.kind = .scalar ∨ d.leaf.kind = .elementCollection
  type : d.leaf.declared.family ∈ searchable
  first : ∀ f ∈ d.way.head?, f.kind = .embedded ∨ f.kind = .association ∧ f.name ∈ propagate
  below : ∀ f ∈ d.way.tail, f.kind = .embedded

/-- The first fields that differ are declared in this order in one schema. -/
inductive Before : Schema → List Field → List Field → Prop
  | differ {s : Schema} {f g : Field} {fs gs : List Field} (h : [f, g].Sublist s.fields) :
      Before s (f :: fs) (g :: gs)
  | same {s inner : Schema} {f : Field} {fs gs : List Field} (hf : f ∈ s.fields)
      (hinner : f.nested = some inner) (h : Before inner fs gs) : Before s (f :: fs) (f :: gs)

/-- The chains in scope in the order of declaration, depth first. -/
structure ListsScope (root : Schema) (maxDepth : Nat) (propagate : List String)
    (ds : List Chain) : Prop where
  mem : ∀ d, d ∈ ds ↔ InScope root maxDepth propagate d
  ordered : ds.Pairwise fun d d' => Before root d.fields d'.fields

end Schema

/-- From the segments `way` of the root, the chain goes on to the target. -/
structure Chain.EndsAt (root : String) (way : List Segment) (d : Chain) (t : Target) : Prop where
  path : t.path = ⟨root, way ++ d.fields.map FieldOf.segment, d.leaf.declared⟩
  heuristic : Heuristic.ofType? d.leaf.declared = some t.heuristic

/-- The terms are those that the keyword becomes for the targets, in their order. A target that
declines the keyword or fails on it has none. -/
inductive Terms (coercer : Coercer) (keyword : String) : List Target → List Expr → Prop
  | nil : Terms coercer keyword [] []
  | term {t : Target} {ts : List Target} {es : List Expr} {test : Test} {operand : Operand}
      (ht : t.heuristic.apply coercer keyword t.path.terminal = .term test operand)
      (hts : Terms coercer keyword ts es) :
      Terms coercer keyword (t :: ts) (.check ⟨t.path, test, operand⟩ :: es)
  | declined {t : Target} {ts : List Target} {es : List Expr}
      (ht : t.heuristic.apply coercer keyword t.path.terminal = .declined)
      (hts : Terms coercer keyword ts es) : Terms coercer keyword (t :: ts) es
  | failed {t : Target} {ts : List Target} {es : List Expr} {e : CoercionError}
      (ht : t.heuristic.apply coercer keyword t.path.terminal = .failed e)
      (hts : Terms coercer keyword ts es) : Terms coercer keyword (t :: ts) es

/-- A keyword searches just the chains in its scope, and only associations that are named are
followed. -/
structure Scoped (c : Compiler) (root : Schema) (propagate : List String) : Prop where
  /-- There is one list of the chains in scope, and the targets are their ends. -/
  chains : ∃ ds, root.ListsScope c.settings.maxDepth.toNat propagate ds ∧
    (∀ ds', root.ListsScope c.settings.maxDepth.toNat propagate ds' → ds' = ds) ∧
      ds.Forall₂ (Chain.EndsAt root.name []) (c.targets root propagate)
  nodup : ((c.targets root propagate).map fun t => t.path.segments.map (·.name)).Nodup
  associations : ∀ t ∈ c.targets root propagate,
    (∀ s ∈ t.path.segments.tail, ∀ card, s.kind ≠ .association card) ∧
      ∀ s ∈ t.path.segments.head?, ∀ card, s.kind = .association card → s.name ∈ propagate
  /-- Names of anything but an association of the root do not matter. -/
  names : ∀ other : List String,
    (∀ f ∈ root.fields, f.kind = .association → (f.name ∈ other ↔ f.name ∈ propagate)) →
      c.targets root other = c.targets root propagate ∧
        ∀ keyword, c.traverse root other keyword = c.traverse root propagate keyword
  terms : ∀ keyword, trim keyword ≠ "" → ∃ es, c.traverse root propagate keyword = .or es ∧
    Terms c.coercer (trim keyword) (c.targets root propagate) es

theorem Heuristic.isSome_ofType?_iff {t : FieldType} :
    (ofType? t).isSome = true ↔ t.family ∈ searchable := by
  cases t with
  | scalar s => cases s <;> decide
  | _ => simp [ofType?, FieldType.family, searchable]

namespace Schema

/-! ## The chains of a schema -/

/-- The chains in scope that start with the field, where `below` gives those of a nested schema. -/
def chainsAt (below : Schema → List Chain) (propagate : List String) (f : Field) : List Chain :=
  if f.kind.isTerminal then
    if f.declared.family ∈ searchable then [⟨[], f⟩] else []
  else if f.kind = .embedded ∨ f.name ∈ propagate then
    match f.nested with
    | some inner => (below inner).map (Chain.behind f)
    | none => []
  else []

/-- The chains in scope, depth first. No association is followed below the schema. -/
def chainsFrom : Nat → Schema → List String → List Chain
  | 0, _, _ => []
  | room + 1, s, propagate =>
    s.fields.flatMap (chainsAt (fun inner => chainsFrom room inner []) propagate)

variable {s inner : Schema} {room : Nat} {propagate : List String} {f : Field} {d : Chain}
  {below : Schema → List Chain}

theorem mem_chainsAt : d ∈ chainsAt below propagate f ↔
    (d = ⟨[], f⟩ ∧ (f.kind = .scalar ∨ f.kind = .elementCollection) ∧
        f.declared.family ∈ searchable) ∨
      ∃ inner, f.nested = some inner ∧
        (f.kind = .embedded ∨ f.kind = .association ∧ f.name ∈ propagate) ∧
          ∃ d' ∈ below inner, d = d'.behind f := by
  unfold chainsAt
  split
  · rename_i hkind
    have hleaf := FieldKind.isTerminal_iff.mp hkind
    have hnot : ¬(f.kind = .embedded ∨ f.kind = .association ∧ f.name ∈ propagate) := by
      rcases hleaf with h | h <;> simp [h]
    simp [hleaf, hnot, and_comm]
  · rename_i hkind
    have hnested := FieldKind.isTerminal_eq_false_iff.mp (Bool.eq_false_iff.mpr hkind)
    have hnot : ¬(f.kind = .scalar ∨ f.kind = .elementCollection) := by
      rcases hnested with h | h <;> simp [h]
    have hfollows : (f.kind = .embedded ∨ f.kind = .association ∧ f.name ∈ propagate) ↔
        f.kind = .embedded ∨ f.name ∈ propagate := by
      rcases hnested with h | h <;> simp [h]
    rw [hfollows]
    split
    · rename_i h
      cases hinner : f.nested <;> simp [h, hnot, @eq_comm Chain d]
    · rename_i h
      simp [h, hnot]

theorem inScope_leaf : InScope s (room + 1) propagate ⟨[], f⟩ ↔ f ∈ s.fields ∧
    (f.kind = .scalar ∨ f.kind = .elementCollection) ∧ f.declared.family ∈ searchable := by
  constructor
  · rintro ⟨hdeclared, -, hkind, htype, -, -⟩
    obtain ⟨hf⟩ | ⟨hf, -, -⟩ := hdeclared
    · exact ⟨hf, hkind, htype⟩
    · exact ⟨hf, hkind, htype⟩
  · rintro ⟨hf, hkind, htype⟩
    exact ⟨.last hf, by simp [Chain.fields], hkind, htype, by simp, by simp⟩

theorem declares_behind : Declares s (d.behind f).fields ↔
    f ∈ s.fields ∧ ∃ inner, f.nested = some inner ∧ Declares inner d.fields := by
  rw [Chain.fields_behind]
  constructor
  · intro h
    generalize hfields : d.fields = fs at h
    cases h with
    | last hf => simp [Chain.fields] at hfields
    | next hf hinner hrest => exact ⟨hf, _, hinner, hrest⟩
  · rintro ⟨hf, inner, hinner, hrest⟩
    exact .next hf hinner hrest

theorem inScope_behind : InScope s (room + 1) propagate (d.behind f) ↔
    f ∈ s.fields ∧ (f.kind = .embedded ∨ f.kind = .association ∧ f.name ∈ propagate) ∧
      ∃ inner, f.nested = some inner ∧ InScope inner room [] d := by
  constructor
  · rintro ⟨hdeclared, hlength, hkind, htype, hfirst, hbelow⟩
    obtain ⟨hf, inner, hinner, hrest⟩ := declares_behind.mp hdeclared
    have hway : ∀ g ∈ d.way, g.kind = .embedded := hbelow
    refine ⟨hf, hfirst f rfl, inner, hinner, hrest, Nat.le_of_succ_le_succ hlength, hkind, htype,
      ?_, ?_⟩
    · exact fun g hg => Or.inl (hway g (List.mem_of_mem_head? hg))
    · exact fun g hg => hway g (List.mem_of_mem_tail hg)
  · rintro ⟨hf, hfollows, inner, hinner, ⟨hdeclared, hlength, hkind, htype, hfirst, hbelow⟩⟩
    refine ⟨declares_behind.mpr ⟨hf, inner, hinner, hdeclared⟩, Nat.succ_le_succ hlength, hkind,
      htype, ?_, ?_⟩
    · intro g hg
      cases hg
      exact hfollows
    · obtain ⟨way, leaf⟩ := d
      cases way with
      | nil => simp [Chain.behind]
      | cons g way =>
        have hg : g.kind = .embedded := by simpa using hfirst g rfl
        exact List.forall_mem_cons.mpr ⟨hg, hbelow⟩

theorem mem_chainsFrom : d ∈ chainsFrom room s propagate ↔ InScope s room propagate d := by
  -- One field less leaves one step less, and no names of associations below the root.
  induction room generalizing s propagate d with
  | zero =>
    refine iff_of_false List.not_mem_nil fun h => ?_
    have hlength := h.length_le
    simp [Chain.fields] at hlength
  | succ room ih =>
    simp only [chainsFrom, List.mem_flatMap, mem_chainsAt, ih]
    constructor
    · rintro ⟨f, hf, ⟨rfl, hkind, htype⟩ | ⟨inner, hinner, hfollows, d', hd', rfl⟩⟩
      · exact inScope_leaf.mpr ⟨hf, hkind, htype⟩
      · exact inScope_behind.mpr ⟨hf, hfollows, inner, hinner, hd'⟩
    · intro h
      obtain ⟨way, leaf⟩ := d
      cases way with
      | nil =>
        obtain ⟨hf, hkind, htype⟩ := inScope_leaf.mp h
        exact ⟨leaf, hf, Or.inl ⟨rfl, hkind, htype⟩⟩
      | cons f way =>
        obtain ⟨hf, hfollows, inner, hinner, hd'⟩ := inScope_behind (d := ⟨way, leaf⟩) |>.mp h
        exact ⟨f, hf, Or.inr ⟨inner, hinner, hfollows, ⟨way, leaf⟩, hd', rfl⟩⟩

/-! ## Their order -/

theorem exists_fields_of_mem_chainsAt (h : d ∈ chainsAt below propagate f) :
    ∃ rest, d.fields = f :: rest := by
  rcases mem_chainsAt.mp h with ⟨rfl, -, -⟩ | ⟨-, -, -, d', -, rfl⟩
  · exact ⟨[], rfl⟩
  · exact ⟨d'.fields, rfl⟩

theorem pairwise_chainsFrom :
    (chainsFrom room s propagate).Pairwise fun d d' => Before s d.fields d'.fields := by
  induction room generalizing s propagate with
  | zero => exact .nil
  | succ room ih =>
    refine List.pairwise_flatMap.mpr ⟨fun f hf => ?_, ?_⟩
    · -- Behind one field, the chains of the nested schema keep their order.
      unfold chainsAt
      split_ifs
      · exact List.pairwise_singleton _ _
      · exact .nil
      · cases hinner : f.nested with
        | none => exact .nil
        | some inner => exact List.pairwise_map.mpr (ih.imp fun h => .same hf hinner h)
      · exact .nil
    · rw [List.pairwise_iff_forall_sublist]
      intro f g hfg d hd d' hd'
      obtain ⟨fs, hfs⟩ := exists_fields_of_mem_chainsAt hd
      obtain ⟨gs, hgs⟩ := exists_fields_of_mem_chainsAt hd'
      rw [hfs, hgs]
      exact .differ hfg

theorem listsScope_chainsFrom : ListsScope s room propagate (chainsFrom room s propagate) :=
  ⟨fun _ => mem_chainsFrom, pairwise_chainsFrom⟩

theorem not_sublist_swap {α : Type} {a b : α} {l : List α} (hl : l.Nodup) (h : [a, b].Sublist l) :
    ¬[b, a].Sublist l := by
  intro h'
  induction l with
  | nil => cases h
  | cons x l ih =>
    obtain ⟨hx, hl⟩ := List.nodup_cons.mp hl
    cases h with
    | cons _ h =>
      cases h' with
      | cons _ h' => exact ih hl h h'
      | cons_cons => exact hx (h.subset (by simp))
    | cons_cons _ h =>
      cases h' with
      | cons _ h' => exact hx (h'.subset (by simp))
      | cons_cons _ h' => exact hx (h'.subset (by simp))

theorem Before.asymm {fs gs : List Field} (h : Before s fs gs) (hs : Built s) :
    ¬Before s gs fs := by
  induction h with
  | differ hfg =>
    intro h'
    have hnodup := hs.nodup_names.of_map
    cases h' with
    | differ hgf => exact not_sublist_swap hnodup hfg hgf
    | same => exact not_sublist_swap hnodup hfg hfg
  | same hf hinner _ ih =>
    intro h'
    cases h' with
    | differ hff => exact not_sublist_swap hs.nodup_names.of_map hff hff
    | same _ hinner' h' =>
      obtain rfl := Option.some.inj (hinner.symm.trans hinner')
      exact ih (hs.nested hf hinner) h'

theorem ListsScope.nodup {ds : List Chain} (h : ListsScope s room propagate ds) (hs : Built s) :
    ds.Nodup := by
  apply h.ordered.imp
  rintro d _ hd rfl
  exact hd.asymm hs hd

theorem ListsScope.unique {ds ds' : List Chain} (h : ListsScope s room propagate ds)
    (h' : ListsScope s room propagate ds') (hs : Built s) : ds = ds' := by
  have hperm : ds.Perm ds' := by
    rw [List.perm_ext_iff_of_nodup (h.nodup hs) (h'.nodup hs)]
    intro d
    rw [h.mem, h'.mem]
  refine hperm.eq_of_pairwise ?_ h.ordered h'.ordered
  intro d d' _ _ hd hd'
  exact absurd hd' (hd.asymm hs)

theorem Before.names_ne {fs gs : List Field} (h : Before s fs gs) (hs : Built s) :
    fs.map (·.name) ≠ gs.map (·.name) := by
  induction h with
  | differ hfg =>
    intro hnames
    have hnodup := (hfg.map (·.name)).nodup hs.nodup_names
    simp_all
  | same hf hinner _ ih =>
    intro hnames
    exact ih (hs.nested hf hinner) (List.cons.inj hnames).2

theorem nodup_chainsFrom (hs : Built s) :
    ((chainsFrom room s propagate).map fun d => d.fields.map (·.name)).Nodup :=
  List.pairwise_map.mpr (pairwise_chainsFrom.imp fun h => h.names_ne hs)

/-! ## The targets of a schema -/

theorem endsAt_leaf (root : String) (way : List Segment) (f : Field) :
    (if f.declared.family ∈ searchable then [(⟨[], f⟩ : Chain)] else []).Forall₂
      (Chain.EndsAt root way)
      (match Heuristic.ofType? f.declared with
      | some h => [⟨⟨root, way ++ [f.segment], f.declared⟩, h⟩]
      | none => []) := by
  simp only [← Heuristic.isSome_ofType?_iff]
  cases hh : Heuristic.ofType? f.declared with
  | none => exact .nil
  | some h => exact .cons ⟨rfl, hh⟩ .nil

theorem endsAt_targetsFrom (root : String) (room : Nat) (s : Schema) (propagate : List String)
    (way : List Segment) :
    (chainsFrom room s propagate).Forall₂ (Chain.EndsAt root way)
      (targetsFrom root room s (propagate.contains ·) way) := by
  induction room generalizing s propagate way with
  | zero => exact .nil
  | succ room ih =>
    unfold chainsFrom targetsFrom
    refine List.rel_flatMap (List.forall₂_same.mpr fun f _ => rfl) ?_
    rintro f _ rfl
    have hnested : (match f.nested with
        | some inner => (chainsFrom room inner []).map (Chain.behind f)
        | none => []).Forall₂ (Chain.EndsAt root way)
        (match f.nested with
        | some inner => targetsFrom root room inner (fun _ => false) (way ++ [f.segment])
        | none => []) := by
      cases f.nested with
      | none => exact .nil
      | some inner =>
        refine List.forall₂_map_left_iff.mpr ((ih inner [] (way ++ [f.segment])).imp ?_)
        rintro d t ⟨hpath, hheuristic⟩
        refine ⟨?_, hheuristic⟩
        rw [hpath, List.append_assoc]
        rfl
    unfold chainsAt
    dsimp only
    cases f.kind with
    | scalar | elementCollection => exact endsAt_leaf root way f
    | embedded =>
      rw [if_neg (by decide), if_pos (Or.inl rfl)]
      exact hnested
    | association =>
      rw [if_neg (by decide)]
      by_cases hname : f.name ∈ propagate
      · rw [if_pos (Or.inr hname)]
        simp only [List.contains_iff_mem, if_pos hname]
        exact hnested
      · simp [hname]

theorem targetsFrom_congr {root : String} {follows follows' : String → Bool} {way : List Segment}
    (h : ∀ f ∈ s.fields, f.kind = .association → follows f.name = follows' f.name) :
    targetsFrom root room s follows way = targetsFrom root room s follows' way := by
  cases room with
  | zero => rfl
  | succ room =>
    unfold targetsFrom
    apply List.flatMap_congr
    intro f hf
    cases hkind : f.kind with
    | association => simp only [h f hf hkind]
    | _ => rfl

theorem targets_congr {root : Schema} {maxDepth : Nat} {other : List String}
    (h : ∀ f ∈ root.fields, f.kind = .association → (f.name ∈ other ↔ f.name ∈ propagate)) :
    root.targets maxDepth other = root.targets maxDepth propagate := by
  apply targetsFrom_congr
  intro f hf hkind
  rw [Bool.eq_iff_iff, List.contains_iff_mem, List.contains_iff_mem]
  exact h f hf hkind

theorem kind_eq_association {f : Field} {card : Cardinality}
    (h : f.segment.kind = .association card) : f.kind = .association := by
  unfold FieldOf.segment FieldOf.segmentKind at h
  split at h <;> first | assumption | cases h

theorem InScope.associations {t : Target} {root : String} (h : InScope s room propagate d)
    (ht : d.EndsAt root [] t) :
    (∀ g ∈ t.path.segments.tail, ∀ card, g.kind ≠ .association card) ∧
      ∀ g ∈ t.path.segments.head?, ∀ card, g.kind = .association card → g.name ∈ propagate := by
  rw [ht.path]
  have hleaf : d.leaf.kind ≠ .association := by
    rcases h.kind with hkind | hkind <;> simp [hkind]
  have hbelow := h.below
  have hfirst := h.first
  obtain ⟨way, leaf⟩ := d
  cases way with
  | nil =>
    refine ⟨by simp [Chain.fields], ?_⟩
    intro g hg card hcard
    cases hg
    exact absurd (kind_eq_association hcard) hleaf
  | cons f way =>
    constructor
    · intro segment hsegment card hcard
      obtain ⟨g, hg, rfl⟩ := List.mem_map.mp hsegment
      have hkind := kind_eq_association hcard
      rcases List.mem_append.mp hg with hg | hg
      · have hembedded : g.kind = .embedded := hbelow g hg
        rw [hembedded] at hkind
        cases hkind
      · cases List.mem_singleton.mp hg
        exact hleaf hkind
    · intro g hg card hcard
      cases hg
      have hkind := kind_eq_association hcard
      rcases hfirst f rfl with hembedded | ⟨-, hname⟩
      · rw [hembedded] at hkind
        cases hkind
      · exact hname

end Schema

/-! ## Searching -/

namespace Chain

variable {root : String} {ds : List Chain} {ts : List Target}

theorem names_of_endsAt (h : ds.Forall₂ (EndsAt root []) ts) :
    ts.map (fun t => t.path.segments.map (·.name)) = ds.map fun d => d.fields.map (·.name) := by
  induction h with
  | nil => rfl
  | cons hd _ ih =>
    rw [List.map_cons, List.map_cons, ih, hd.path, List.nil_append, List.map_map]
    rfl

theorem exists_endsAt (h : ds.Forall₂ (EndsAt root []) ts) {t : Target} (ht : t ∈ ts) :
    ∃ d ∈ ds, d.EndsAt root [] t := by
  obtain ⟨hlength, hget⟩ := List.forall₂_iff_get.mp h
  obtain ⟨i, rfl⟩ := List.get_of_mem ht
  exact ⟨_, List.get_mem ds _, hget i (i.isLt.trans_eq hlength.symm) i.isLt⟩

end Chain

theorem terms_filterMap (coercer : Coercer) (keyword : String) (ts : List Target) :
    Terms coercer keyword ts (ts.filterMap (·.term? coercer keyword)) := by
  induction ts with
  | nil => exact .nil
  | cons t ts ih =>
    rw [List.filterMap_cons]
    unfold Target.term? Target.outcome
    cases ht : t.heuristic.apply coercer keyword t.path.terminal with
    | term test operand => exact .term ht ih
    | declined => exact .declined ht ih
    | failed e => exact .failed ht ih

namespace Compiler

theorem scoped_of_built (c : Compiler) {root : Schema} (hroot : Schema.Built root)
    (propagate : List String) : Scoped c root propagate := by
  have hends : (Schema.chainsFrom c.settings.maxDepth.toNat root propagate).Forall₂
      (Chain.EndsAt root.name []) (c.targets root propagate) :=
    Schema.endsAt_targetsFrom root.name c.settings.maxDepth.toNat root propagate []
  have hlists : root.ListsScope c.settings.maxDepth.toNat propagate
      (Schema.chainsFrom c.settings.maxDepth.toNat root propagate) := Schema.listsScope_chainsFrom
  refine ⟨⟨_, hlists, fun _ h => h.unique hlists hroot, hends⟩, ?_, ?_, ?_, ?_⟩
  · rw [Chain.names_of_endsAt hends]
    exact Schema.nodup_chainsFrom hroot
  · intro t ht
    obtain ⟨d, hd, hend⟩ := Chain.exists_endsAt hends ht
    exact (Schema.mem_chainsFrom.mp hd).associations hend
  · intro other hother
    have htargets : c.targets root other = c.targets root propagate := Schema.targets_congr hother
    refine ⟨htargets, fun keyword => ?_⟩
    unfold traverse
    rw [htargets]
  · intro keyword hkeyword
    have hnonblank : (trim keyword).isEmpty = false := by simpa using hkeyword
    refine ⟨_, ?_, terms_filterMap _ _ _⟩
    unfold traverse searchTargets
    rw [hnonblank]
    rfl

end Compiler

/-! ## A hotel -/

def towns : Schema := .mk "Town" [⟨"town", none, .scalar .text, .single, .scalar, none⟩] []

def guests : Schema :=
  .mk "Guest"
    [⟨"name", none, .scalar .text, .single, .scalar, none⟩,
      ⟨"home", none, .record "Town", .single, .embedded, some towns⟩,
      ⟨"friends", none, .record "Town", .many, .association, some towns⟩] []

def visits : Schema :=
  .mk "Visit"
    [⟨"host", some "host_id", .record "Guest", .single, .association, some guests⟩,
      ⟨"guest", some "guest_id", .record "Guest", .single, .association, some guests⟩,
      ⟨"day", none, .scalar .date, .single, .scalar, none⟩,
      ⟨"hotel", none, .record "Town", .single, .embedded, some towns⟩,
      ⟨"rooms", none, .scalar .u8, .many, .elementCollection, none⟩] []

theorem built_visits : Schema.Built visits :=
  have htowns : Schema.Built towns := .of_eq rfl (by simp [towns, Schema.fields])
  have hguests : Schema.Built guests := .of_eq rfl (by simp [guests, Schema.fields, htowns])
  .of_eq rfl (by simp [visits, Schema.fields, htowns, hguests])

/-- Two segments do not reach the home of a guest, and hosts are not followed. -/
theorem visits_scoped :
    Schema.Built visits ∧
      (Compiler.targets ⟨{ maxDepth := 2 }, .standard⟩ visits ["day", "friends", "guest"]).map
          (·.path.dotted) = ["guest.name", "hotel.town", "rooms"] ∧
        Scoped ⟨{ maxDepth := 2 }, .standard⟩ visits ["day", "friends", "guest"] :=
  ⟨built_visits, by decide, Compiler.scoped_of_built _ built_visits _⟩

end RecordFilter
