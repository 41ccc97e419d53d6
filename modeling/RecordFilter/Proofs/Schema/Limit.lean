import RecordFilter.Proofs.Schema.Resolution

/-!
# The limit of a walk

A walk that ends within its limit does not know of it: a larger limit gives the same path, or the
same error. What exceeds a limit are selectors that lead on for longer. Only of the greatest limit
they are not said to exceed it, since the step that would is not counted.
-/

namespace RecordFilter

open RecordFilter.Number

namespace PathError

/-- The error of a walk with another limit, if it is the limit that was too small. -/
def withLimit (max : UInt64) : PathError → PathError
  | depthExceeded _ | overflow => beyond max
  | e => e

theorem beyond_of_ne {max : UInt64} (hmax : max ≠ greatestWord) :
    beyond max = depthExceeded max := if_neg hmax

theorem beyond_greatestWord : beyond greatestWord = overflow := if_pos rfl

theorem withLimit_beyond (max max' : UInt64) : (beyond max').withLimit max = beyond max := by
  unfold beyond
  split <;> rfl

end PathError

namespace Schema

variable {max max' : UInt64} {room room' steps steps' m n : Nat} {selector selector' : String}
  {s t : Schema} {heads left : List String} {way : List Field} {e : PathError}

theorem resolve_eq (h : IsSelector selector heads) :
    s.resolve max selector =
      (walk max selector max.toNat s heads).map fun r => ⟨s.name, r.1, r.2⟩ := by
  rw [resolve, splitSelector_eq_ok_iff.mpr h]
  simp only [bind, Except.bind]
  cases walk max selector max.toNat s heads <;> rfl

/-- The limit and the selector that a walk is told are for its errors only, and the selector is not
even in those. -/
theorem walk_withLimit (max max' : UInt64) (selector selector' : String) (hheads : heads ≠ []) :
    walk max selector steps s heads =
      (walk max' selector' steps s heads).mapError (·.withLimit max) := by
  induction steps generalizing s heads with
  | zero =>
    obtain ⟨head, rest, rfl⟩ := List.exists_cons_of_ne_nil hheads
    rw [walk, walk, Except.mapError, PathError.withLimit_beyond]
  | succ steps ih =>
    obtain ⟨head, rest, rfl⟩ := List.exists_cons_of_ne_nil hheads
    rw [walk, walk]
    cases s.field? head with
    | none =>
      cases s.alias? head with
      | none => rfl
      | some target =>
        cases hsplit : splitSelector target with
        | error e =>
          obtain ⟨rfl, -⟩ := splitSelector_eq_error_iff.mp hsplit
          simp only [hsplit]
          rfl
        | ok parts =>
          have hparts := splitSelector_eq_ok_iff.mp hsplit
          simp only [hsplit]
          exact ih (List.append_ne_nil_of_left_ne_nil hparts.split.ne_nil rest)
    | some f =>
      dsimp only
      split
      · split <;> rfl
      · split
        · rw [ih (List.cons_ne_nil _ _)]
          cases walk max' selector' steps _ _ <;> rfl
        · rfl

/-! ## Within the limit -/

theorem Offends.mono (h : Offends max s room left e) (he : e ≠ .beyond max)
    (hroom : room ≤ room') : Offends max' s room' left e := by
  cases h with
  | depthExceeded hmax => exact absurd (PathError.beyond_of_ne hmax).symm he
  | overflow hmax => exact absurd (hmax ▸ PathError.beyond_greatestWord.symm) he
  | unknownField hfield halias =>
    obtain ⟨room', rfl⟩ := Nat.exists_eq_add_of_lt hroom
    exact .unknownField hfield halias
  | emptyTarget hfield halias hparts hempty =>
    obtain ⟨room', rfl⟩ := Nat.exists_eq_add_of_lt hroom
    exact .emptyTarget hfield halias hparts hempty
  | notTerminal hf hkind hrest =>
    obtain ⟨room', rfl⟩ := Nat.exists_eq_add_of_lt hroom
    exact .notTerminal hf hkind hrest
  | unterminated hf hkind =>
    obtain ⟨room', rfl⟩ := Nat.exists_eq_add_of_lt hroom
    exact .unterminated hf hkind

theorem Walks.mono {r : Except PathError (List Field)} (h : Walks max steps s heads r)
    (hr : r ≠ .error (.beyond max)) (hsteps : steps ≤ steps') :
    Walks max' steps' s heads r := by
  cases h with
  | found hway hn hf hkind => exact .found hway (Nat.le_trans hn hsteps) hf hkind
  | @refused n room _ _ _ _ hway hn hleft =>
    have he := fun he => hr (congrArg _ he)
    obtain ⟨more, rfl⟩ := Nat.exists_eq_add_of_le hsteps
    exact .refused hway (by omega) (hleft.mono he (Nat.le_add_right room more))

theorem Resolves.mono {r : Except PathError (List Field)} (h : Resolves s max selector r)
    (hr : r ≠ .error (.beyond max)) (hmax : max ≤ max') : Resolves s max' selector r := by
  cases h with
  | emptySegment hparts hempty => exact .emptySegment hparts hempty
  | walks hheads hwalks => exact .walks hheads (hwalks.mono hr hmax)

theorem resolve_mono (hs : Built s) (h : s.resolve max selector ≠ .error (.beyond max))
    (hmax : max ≤ max') : s.resolve max' selector = s.resolve max selector := by
  cases hr : s.resolve max selector with
  | ok p =>
    obtain ⟨fields, hfields, hpath⟩ := exists_resolves_of_resolve_ok hs hr
    obtain ⟨q, hq, hqpath⟩ := resolve_of_resolves_ok hs (hfields.mono nofun hmax)
    rw [hq, hqpath.unique hpath]
  | error e =>
    have he := resolves_of_resolve_error hs hr
    exact resolve_of_resolves_error hs (he.mono (fun heq => h (by cases heq; exact hr)) hmax)

/-! ## Beyond the limit -/

theorem Leads.cut (h : Leads s heads n way t left) (hm : m ≤ n) (hleft : left ≠ []) :
    ∃ way t left, Leads s heads m way t left ∧ left ≠ [] := by
  induction h generalizing m with
  | here =>
    obtain rfl := Nat.le_zero.mp hm
    exact ⟨_, _, _, .here, hleft⟩
  | enter hf hkind hinner _ ih =>
    cases m with
    | zero => exact ⟨_, _, _, .here, List.cons_ne_nil _ _⟩
    | succ m =>
      obtain ⟨way, t, left, hleads, hne⟩ := ih (Nat.le_of_succ_le_succ hm) hleft
      exact ⟨_, _, _, .enter hf hkind hinner hleads, hne⟩
  | expand hfield halias hparts _ ih =>
    cases m with
    | zero => exact ⟨_, _, _, .here, List.cons_ne_nil _ _⟩
    | succ m =>
      obtain ⟨way, t, left, hleads, hne⟩ := ih (Nat.le_of_succ_le_succ hm) hleft
      exact ⟨_, _, _, .expand hfield halias hparts hleads, hne⟩

theorem walk_exceeds (hs : Built s) (h : Leads s heads n way t left) (hleft : left ≠ [])
    (hsteps : steps ≤ n) : walk max selector steps s heads = .error (.beyond max) := by
  obtain ⟨way, t, left, hleads, hne⟩ := h.cut hsteps hleft
  obtain ⟨head, rest, rfl⟩ := List.exists_cons_of_ne_nil hne
  exact walk_refused hs hleads (offends_beyond max t head rest)

/-- The names that a selector leads to are more than `n`. -/
def Outlasts (s : Schema) (selector : String) (n : Nat) : Prop :=
  ∃ heads way t left, IsSelector selector heads ∧ Leads s heads n way t left ∧ left ≠ []

theorem resolve_of_outlasts (hs : Built s) (h : Outlasts s selector max.toNat) :
    s.resolve max selector = .error (.beyond max) := by
  obtain ⟨heads, way, t, left, hheads, hleads, hleft⟩ := h
  rw [resolve_eq hheads, walk_exceeds hs hleads hleft (Nat.le_refl max.toNat)]
  rfl

/-- The limit is too small just when as many names as it allows leave more to be followed. -/
theorem resolve_eq_beyond_iff (hs : Built s) :
    s.resolve max selector = .error (.beyond max) ↔ Outlasts s selector max.toNat := by
  refine ⟨fun h => ?_, resolve_of_outlasts hs⟩
  unfold PathError.beyond at h
  -- Either error is only that of a walk without room for another name.
  split at h
  all_goals
    obtain - | ⟨hheads, hwalks⟩ := resolves_of_resolve_error hs h
    obtain - | ⟨hway, hroom, hleft⟩ := hwalks
    cases hleft
    cases hroom
    exact ⟨_, _, _, _, hheads, hway, List.cons_ne_nil _ _⟩

end Schema

end RecordFilter
