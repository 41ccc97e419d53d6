import RecordFilter.Proofs.Schema.Built
import RecordFilter.Proofs.Schema.Selector

/-!
# Resolution by the rules

A selector is followed one name at a time, and the rules say what each name leads to and what may
be wrong with it. A walk through a built schema finds the fields that the rules lead along, or the
first thing that is wrong.
-/

namespace RecordFilter

open RecordFilter.Number

namespace FieldKind

theorem isTerminal_iff {k : FieldKind} :
    k.isTerminal = true ↔ k = .scalar ∨ k = .elementCollection := by
  cases k <;> simp [isTerminal]

theorem isTerminal_eq_false_iff {k : FieldKind} :
    k.isTerminal = false ↔ k = .embedded ∨ k = .association := by
  cases k <;> simp [isTerminal]

end FieldKind

namespace Schema

/-! ## The rules -/

/-- From schema `s`, the `heads` lead in `n` steps along the fields `way` to schema `t`, and the
names `left` are still to be followed. -/
inductive Leads : Schema → List String → Nat → List Field → Schema → List String → Prop
  | here {s : Schema} {heads : List String} : Leads s heads 0 [] s heads
  | enter {s inner t : Schema} {f : Field} {rest left : List String} {n : Nat} {way : List Field}
      (hf : f ∈ s.fields) (hkind : f.kind = .embedded ∨ f.kind = .association)
      (hinner : f.nested = some inner) (hrest : Leads inner rest n way t left) :
      Leads s (f.name :: rest) (n + 1) (f :: way) t left
  | expand {s t : Schema} {head target : String} {parts rest left : List String} {n : Nat}
      {way : List Field} (hfield : ∀ f ∈ s.fields, f.name ≠ head)
      (halias : (head, target) ∈ s.aliases) (hparts : IsSelector target parts)
      (hrest : Leads s (parts ++ rest) n way t left) :
      Leads s (head :: rest) (n + 1) way t left

/-- What is wrong with the next of the `heads` in schema `s` when `room` more names may be followed,
out of `max`. A limit is exceeded by a count of steps, and the greatest one by none. -/
inductive Offends (max : UInt64) (s : Schema) : Nat → List String → PathError → Prop
  | depthExceeded {head : String} {rest : List String} (hmax : max ≠ greatestWord) :
      Offends max s 0 (head :: rest) (.depthExceeded max)
  | overflow {head : String} {rest : List String} (hmax : max = greatestWord) :
      Offends max s 0 (head :: rest) .overflow
  | unknownField {room : Nat} {head : String} {rest : List String}
      (hfield : ∀ f ∈ s.fields, f.name ≠ head) (halias : ∀ a ∈ s.aliases, a.1 ≠ head) :
      Offends max s (room + 1) (head :: rest) (.unknownField head s.name)
  | emptyTarget {room : Nat} {head target : String} {parts rest : List String}
      (hfield : ∀ f ∈ s.fields, f.name ≠ head) (halias : (head, target) ∈ s.aliases)
      (hparts : IsSplit target parts) (hempty : "" ∈ parts) :
      Offends max s (room + 1) (head :: rest) (.emptySegment target)
  | notTerminal {room : Nat} {f : Field} {rest : List String} (hf : f ∈ s.fields)
      (hkind : f.kind = .scalar ∨ f.kind = .elementCollection) (hrest : rest ≠ []) :
      Offends max s (room + 1) (f.name :: rest) (.notTerminal f.name s.name f.kind)
  | unterminated {room : Nat} {f : Field} (hf : f ∈ s.fields)
      (hkind : f.kind = .embedded ∨ f.kind = .association) :
      Offends max s (room + 1) [f.name] (.unterminated f.name s.name f.kind)

/-- What following the `heads` in at most `steps` steps comes to. -/
inductive Walks (max : UInt64) (steps : Nat) (s : Schema) (heads : List String) :
    Except PathError (List Field) → Prop
  | found {n : Nat} {way : List Field} {t : Schema} {f : Field}
      (hway : Leads s heads n way t [f.name]) (hn : n + 1 ≤ steps) (hf : f ∈ t.fields)
      (hkind : f.kind = .scalar ∨ f.kind = .elementCollection) :
      Walks max steps s heads (.ok (way ++ [f]))
  | refused {n room : Nat} {way : List Field} {t : Schema} {left : List String} {e : PathError}
      (hway : Leads s heads n way t left) (hn : n + room = steps)
      (hleft : Offends max t room left e) : Walks max steps s heads (.error e)

/-- The fields that a selector names by the rules, or the first thing that is wrong with it. -/
inductive Resolves (root : Schema) (max : UInt64) (selector : String) :
    Except PathError (List Field) → Prop
  | emptySegment {parts : List String} (hparts : IsSplit selector parts) (hempty : "" ∈ parts) :
      Resolves root max selector (.error (.emptySegment selector))
  | walks {heads : List String} {r : Except PathError (List Field)}
      (hheads : IsSelector selector heads) (hwalks : Walks max max.toNat root heads r) :
      Resolves root max selector r

/-- The path along these fields. -/
structure IsPathOf (root : Schema) (fields : List Field) (p : Path) : Prop where
  owner : p.owner = root.name
  segments : p.segments = fields.map FieldOf.segment
  terminal : fields.getLast?.map (·.declared) = some p.terminal
  hasJoin : p.hasJoin = true ↔ ∃ f ∈ fields, f.kind = .association ∨ f.kind = .elementCollection
  isMany : p.isMany = true ↔
    ∃ f ∈ fields, f.kind = .association ∧ f.cardinality = .many ∨ f.kind = .elementCollection

/-! ## One step of a walk -/

variable {max : UInt64} {room steps n : Nat} {selector : String} {s t : Schema}
  {heads left rest : List String} {way : List Field} {f : Field} {e : PathError}

theorem walk_enter (hs : Built s) (hf : f ∈ s.fields)
    (hkind : f.kind = .embedded ∨ f.kind = .association) {inner : Schema}
    (hinner : f.nested = some inner) (hrest : rest ≠ []) :
    walk max selector (room + 1) s (f.name :: rest) =
      (walk max selector room inner rest).map fun r => (f.segment :: r.1, r.2) := by
  have hnot : f.kind.isTerminal = false := FieldKind.isTerminal_eq_false_iff.mpr hkind
  obtain ⟨head, rest, rfl⟩ := List.exists_cons_of_ne_nil hrest
  rw [walk, hs.field?_name hf]
  simp only [hnot, hinner, Bool.false_eq_true, if_false]

theorem walk_expand (hs : Built s) {head target : String} {parts : List String}
    (hfield : ∀ f ∈ s.fields, f.name ≠ head) (halias : (head, target) ∈ s.aliases)
    (hparts : IsSelector target parts) :
    walk max selector (room + 1) s (head :: rest) = walk max selector room s (parts ++ rest) := by
  rw [walk, field?_eq_none_iff.mpr hfield, hs.alias?_eq_some_iff.mpr halias]
  simp only [splitSelector_eq_ok_iff.mpr hparts]

theorem walk_last (hs : Built s) (hf : f ∈ s.fields)
    (hkind : f.kind = .scalar ∨ f.kind = .elementCollection) :
    walk max selector (room + 1) s [f.name] = .ok ([f.segment], f.declared) := by
  rw [walk, hs.field?_name hf]
  simp [FieldKind.isTerminal_iff.mpr hkind]

theorem walk_offends (hs : Built s) (h : Offends max s room left e) :
    walk max selector room s left = .error e := by
  cases h with
  | depthExceeded hmax => rw [walk, PathError.beyond, if_neg hmax]
  | overflow hmax => rw [walk, PathError.beyond, if_pos hmax]
  | unknownField hfield halias =>
    rw [walk, field?_eq_none_iff.mpr hfield, alias?_eq_none_iff.mpr halias]
  | emptyTarget hfield halias hparts hempty =>
    rw [walk, field?_eq_none_iff.mpr hfield, hs.alias?_eq_some_iff.mpr halias]
    simp only [splitSelector_eq_error_iff.mpr ⟨rfl, _, hparts, hempty⟩]
  | notTerminal hf hkind hrest =>
    rw [walk, hs.field?_name hf]
    simp [FieldKind.isTerminal_iff.mpr hkind, hrest]
  | unterminated hf hkind =>
    rw [walk, hs.field?_name hf]
    simp [FieldKind.isTerminal_eq_false_iff.mpr hkind]

theorem offends_beyond (max : UInt64) (s : Schema) (head : String) (rest : List String) :
    Offends max s 0 (head :: rest) (.beyond max) := by
  unfold PathError.beyond
  split
  · exact .overflow ‹_›
  · exact .depthExceeded ‹_›

/-! ## The whole walk -/

theorem Leads.built (h : Leads s heads n way t left) (hs : Built s) : Built t := by
  induction h with
  | here => exact hs
  | enter hf _ hinner _ ih => exact ih (hs.nested hf hinner)
  | expand _ _ _ _ ih => exact ih hs

theorem Leads.ne_nil (h : Leads s heads n way t left) (hleft : left ≠ []) : heads ≠ [] := by
  cases h with
  | here => exact hleft
  | enter => simp
  | expand => simp

theorem Offends.ne_nil (h : Offends max s room left e) : left ≠ [] := by
  cases h <;> exact List.cons_ne_nil _ _

theorem walk_leads (hs : Built s) (h : Leads s heads n way t left) (hleft : left ≠ []) :
    walk max selector (n + room) s heads =
      (walk max selector room t left).map fun r => (way.map FieldOf.segment ++ r.1, r.2) := by
  -- Each rule on the way is one step of the walk, and `room` stays for what is left.
  induction h with
  | @here s heads =>
    rw [Nat.zero_add]
    cases walk max selector room s heads <;> rfl
  | @enter s inner t f rest left n way hf hkind hinner hrest ih =>
    rw [Nat.add_right_comm, walk_enter hs hf hkind hinner (hrest.ne_nil hleft),
      ih (hs.nested hf hinner) hleft]
    cases walk max selector room t left <;> rfl
  | expand hfield halias hparts _ ih =>
    rw [Nat.add_right_comm, walk_expand hs hfield halias hparts, ih hs hleft]

theorem walk_found (hs : Built s) (hway : Leads s heads n way t [f.name]) (hn : n + 1 ≤ steps)
    (hf : f ∈ t.fields) (hkind : f.kind = .scalar ∨ f.kind = .elementCollection) :
    walk max selector steps s heads = .ok ((way ++ [f]).map FieldOf.segment, f.declared) := by
  obtain ⟨room, rfl⟩ : ∃ room, steps = n + (room + 1) := ⟨steps - (n + 1), by omega⟩
  rw [walk_leads hs hway (List.cons_ne_nil _ _), walk_last (hway.built hs) hf hkind]
  simp [Except.map]

theorem walk_refused (hs : Built s) (hway : Leads s heads n way t left)
    (hleft : Offends max t room left e) : walk max selector (n + room) s heads = .error e := by
  rw [walk_leads hs hway hleft.ne_nil, walk_offends (hway.built hs) hleft]
  rfl

theorem Walks.enter {inner : Schema} {r : Except PathError (List Field)} (hf : f ∈ s.fields)
    (hkind : f.kind = .embedded ∨ f.kind = .association) (hinner : f.nested = some inner)
    (h : Walks max steps inner rest r) :
    Walks max (steps + 1) s (f.name :: rest) (r.map (f :: ·)) := by
  cases h with
  | found hway hn hlast hend =>
    exact .found (.enter hf hkind hinner hway) (Nat.succ_le_succ hn) hlast hend
  | refused hway hn hleft =>
    exact .refused (.enter hf hkind hinner hway) (by omega) hleft

theorem Walks.expand {head target : String} {parts : List String}
    {r : Except PathError (List Field)} (hfield : ∀ f ∈ s.fields, f.name ≠ head)
    (halias : (head, target) ∈ s.aliases) (hparts : IsSelector target parts)
    (h : Walks max steps s (parts ++ rest) r) : Walks max (steps + 1) s (head :: rest) r := by
  cases h with
  | found hway hn hlast hend =>
    exact .found (.expand hfield halias hparts hway) (Nat.succ_le_succ hn) hlast hend
  | refused hway hn hleft =>
    exact .refused (.expand hfield halias hparts hway) (by omega) hleft

theorem exists_walks (hs : Built s) (hheads : heads ≠ []) : ∃ r, Walks max steps s heads r := by
  induction steps generalizing s heads with
  | zero =>
    obtain ⟨head, rest, rfl⟩ := List.exists_cons_of_ne_nil hheads
    exact ⟨_, .refused .here rfl (offends_beyond max s head rest)⟩
  | succ steps ih =>
    obtain ⟨head, rest, rfl⟩ := List.exists_cons_of_ne_nil hheads
    -- The first name is that of a field, else that of an alias, else it is unknown.
    by_cases hfield : ∃ f ∈ s.fields, f.name = head
    · obtain ⟨f, hf, rfl⟩ := hfield
      cases hkind : f.kind.isTerminal with
      | true =>
        have hend := FieldKind.isTerminal_iff.mp hkind
        by_cases hrest : rest = []
        · subst hrest
          exact ⟨_, .found .here (Nat.succ_le_succ (Nat.zero_le _)) hf hend⟩
        · exact ⟨_, .refused .here (Nat.zero_add _) (.notTerminal hf hend hrest)⟩
      | false =>
        have hon := FieldKind.isTerminal_eq_false_iff.mp hkind
        by_cases hrest : rest = []
        · subst hrest
          exact ⟨_, .refused .here (Nat.zero_add _) (.unterminated hf hon)⟩
        · have hsome : f.nested.isSome = true := by
            rw [hs.isSome_nested hf, FieldKind.isNested, hkind, Bool.not_false]
          obtain ⟨inner, hinner⟩ := Option.isSome_iff_exists.mp hsome
          obtain ⟨r, hr⟩ := ih (hs.nested hf hinner) hrest
          exact ⟨_, hr.enter hf hon hinner⟩
    · have hfields : ∀ f ∈ s.fields, f.name ≠ head := fun f hf hname => hfield ⟨f, hf, hname⟩
      cases halias : s.alias? head with
      | none =>
        have haliases := alias?_eq_none_iff.mp halias
        exact ⟨_, .refused .here (Nat.zero_add _) (.unknownField hfields haliases)⟩
      | some target =>
        have hmem := hs.alias?_eq_some_iff.mp halias
        by_cases hempty : "" ∈ dotParts target
        · exact ⟨_, .refused .here (Nat.zero_add _)
            (.emptyTarget hfields hmem (isSplit_dotParts target) hempty)⟩
        · have hparts : IsSelector target (dotParts target) := ⟨isSplit_dotParts target, hempty⟩
          obtain ⟨r, hr⟩ := ih hs (List.append_ne_nil_of_left_ne_nil hparts.split.ne_nil rest)
          exact ⟨_, hr.expand hfields hmem hparts⟩

theorem exists_resolves (hs : Built s) (max : UInt64) (selector : String) :
    ∃ r, Resolves s max selector r := by
  have hsplit := isSplit_dotParts selector
  by_cases hempty : "" ∈ dotParts selector
  · exact ⟨_, .emptySegment hsplit hempty⟩
  · obtain ⟨r, hr⟩ : ∃ r, Walks max max.toNat s (dotParts selector) r :=
      exists_walks hs hsplit.ne_nil
    exact ⟨r, .walks ⟨hsplit, hempty⟩ hr⟩

/-! ## Resolving -/

theorem IsPathOf.unique {fields : List Field} {p q : Path} (hp : IsPathOf s fields p)
    (hq : IsPathOf s fields q) : p = q := by
  obtain ⟨powner, psegments, pterminal⟩ := p
  obtain ⟨qowner, qsegments, qterminal⟩ := q
  have howner : powner = qowner := hp.owner.trans hq.owner.symm
  have hsegments : psegments = qsegments := hp.segments.trans hq.segments.symm
  have hterminal : some pterminal = some qterminal := hp.terminal.symm.trans hq.terminal
  rw [howner, hsegments, Option.some.inj hterminal]

theorem isPathOf_append (s : Schema) (way : List Field) (f : Field) :
    IsPathOf s (way ++ [f]) ⟨s.name, (way ++ [f]).map FieldOf.segment, f.declared⟩ where
  owner := rfl
  segments := rfl
  terminal := by simp
  hasJoin := by
    rw [Path.hasJoin, List.any_map, List.any_eq_true]
    refine exists_congr fun g => and_congr_right fun _ => ?_
    cases h : g.kind <;> simp [FieldOf.segment, FieldOf.segmentKind, SegmentKind.isJoin, h]
  isMany := by
    rw [Path.isMany, List.any_map, List.any_eq_true]
    refine exists_congr fun g => and_congr_right fun _ => ?_
    cases h : g.kind <;> cases hc : g.cardinality <;>
      simp [FieldOf.segment, FieldOf.segmentKind, SegmentKind.isMany, h, hc]

theorem resolve_of_resolves_ok (hs : Built s) {fields : List Field}
    (h : Resolves s max selector (.ok fields)) :
    ∃ p, s.resolve max selector = .ok p ∧ IsPathOf s fields p := by
  obtain - | ⟨hheads, hwalks⟩ := h
  obtain ⟨hway, hn, hf, hkind⟩ | - := hwalks
  refine ⟨_, ?_, isPathOf_append s _ _⟩
  rw [resolve, splitSelector_eq_ok_iff.mpr hheads]
  simp only [bind, Except.bind, walk_found hs hway hn hf hkind, pure, Except.pure]

theorem resolve_of_resolves_error (hs : Built s) (h : Resolves s max selector (.error e)) :
    s.resolve max selector = .error e := by
  rw [resolve]
  cases h with
  | emptySegment hparts hempty =>
    rw [splitSelector_eq_error_iff.mpr ⟨rfl, _, hparts, hempty⟩]
    rfl
  | walks hheads hwalks =>
    obtain - | ⟨hway, hroom, hleft⟩ := hwalks
    rw [splitSelector_eq_ok_iff.mpr hheads, ← hroom]
    simp only [bind, Except.bind, walk_refused hs hway hleft]

theorem exists_resolves_of_resolve_ok (hs : Built s) {p : Path}
    (h : s.resolve max selector = .ok p) :
    ∃ fields, Resolves s max selector (.ok fields) ∧ IsPathOf s fields p := by
  obtain ⟨r, hr⟩ := exists_resolves hs max selector
  cases r with
  | error e =>
    rw [resolve_of_resolves_error hs hr] at h
    cases h
  | ok fields =>
    obtain ⟨q, hq, hpath⟩ := resolve_of_resolves_ok hs hr
    rw [hq] at h
    cases h
    exact ⟨fields, hr, hpath⟩

theorem resolves_of_resolve_error (hs : Built s) (h : s.resolve max selector = .error e) :
    Resolves s max selector (.error e) := by
  obtain ⟨r, hr⟩ := exists_resolves hs max selector
  cases r with
  | error e' =>
    rw [resolve_of_resolves_error hs hr] at h
    cases h
    exact hr
  | ok fields =>
    obtain ⟨p, hp, -⟩ := resolve_of_resolves_ok hs hr
    rw [hp] at h
    cases h

/-- Resolving a selector gives the path along the fields that the rules lead to, or the first thing
that is wrong. -/
theorem resolve_eq_iff_resolves (hs : Built s) (max : UInt64) (selector : String) :
    (∀ p, s.resolve max selector = .ok p ↔
        ∃ fields, Resolves s max selector (.ok fields) ∧ IsPathOf s fields p) ∧
      ∀ e, s.resolve max selector = .error e ↔ Resolves s max selector (.error e) := by
  obtain ⟨r, hr⟩ := exists_resolves hs max selector
  refine ⟨fun p => ⟨fun hp => ?_, ?_⟩, fun e => ⟨fun he => ?_, resolve_of_resolves_error hs⟩⟩
  · cases r with
    | error e => rw [resolve_of_resolves_error hs hr] at hp; cases hp
    | ok fields =>
      obtain ⟨q, hq, hpath⟩ := resolve_of_resolves_ok hs hr
      rw [hq] at hp
      cases hp
      exact ⟨fields, hr, hpath⟩
  · rintro ⟨fields, hfields, hpath⟩
    obtain ⟨q, hq, hqpath⟩ := resolve_of_resolves_ok hs hfields
    rw [hq, hqpath.unique hpath]
  · cases r with
    | error e' =>
      rw [resolve_of_resolves_error hs hr] at he
      cases he
      exact hr
    | ok fields =>
      obtain ⟨q, hq, -⟩ := resolve_of_resolves_ok hs hr
      rw [hq] at he
      cases he

def customers : Schema :=
  .mk "Customer" [⟨"name", none, .scalar .text, .single, .scalar, none⟩] []

def orders : Schema :=
  .mk "Order"
    [⟨"customer", some "customer_id", .record "Customer", .single, .association, some customers⟩]
    [("buyer", "customer.name")]

theorem built_orders : Built orders :=
  have hcustomers : Built customers := .of_eq rfl (by simp [customers, fields])
  .of_eq rfl (by simp [orders, fields, hcustomers])

theorem orders_resolve_buyer :
    (∃ fields, Resolves orders 3 "buyer" (.ok fields) ∧
      IsPathOf orders fields ⟨"Order",
        [⟨"customer", "customer_id", .association .single⟩, ⟨"name", "name", .scalar⟩],
        .scalar .text⟩) ∧
      Resolves orders 2 "buyer" (.error (.depthExceeded 2)) :=
  ⟨((resolve_eq_iff_resolves built_orders 3 "buyer").1 _).mp rfl,
    ((resolve_eq_iff_resolves built_orders 2 "buyer").2 _).mp rfl⟩

/-- An alias that stands for itself. -/
def ring : Schema :=
  .mk "Ring" [⟨"id", none, .scalar .i64, .single, .scalar, none⟩] [("again", "again")]

theorem built_ring : Built ring :=
  .of_eq rfl (by simp [ring, fields])

theorem isSelector_again : IsSelector "again" ["again"] := splitSelector_eq_ok_iff.mp rfl

theorem leads_ring (n : Nat) : Leads ring ["again"] n [] ring ["again"] := by
  induction n with
  | zero => exact .here
  | succ n ih =>
    exact .expand (by simp [ring, fields]) (by simp [ring, aliases]) isSelector_again ih

theorem resolve_ring (max : UInt64) : ring.resolve max "again" = .error (.beyond max) :=
  resolve_of_resolves_error built_ring (.walks isSelector_again
    (.refused (leads_ring max.toNat) (Nat.add_zero _) (offends_beyond max ring "again" [])))

/-- The names lead on for more steps than the greatest limit allows, and it is not exceeded. -/
theorem ring_notExceeded :
    Built ring ∧ Leads ring ["again"] (greatestWord.toNat + 1) [] ring ["again"] ∧
      ∀ max, ring.resolve greatestWord "again" ≠ .error (.depthExceeded max) := by
  refine ⟨built_ring, leads_ring _, fun max => ?_⟩
  rw [resolve_ring, PathError.beyond, if_pos rfl]
  exact nofun

end Schema

end RecordFilter
