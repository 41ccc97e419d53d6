import RecordFilter.Proofs.Schema.Limit

/-!
# A walk turn by turn

A walk as a machine makes it: a loop over a stack of names, with the segments that it has collected
and a counter of its steps. The stack may grow with each alias, but the counter grows in each turn.
So the loop returns in time, and it is never left because the stack is empty. Counter and limit are
words: a limit that no word exceeds does not end the loop.
-/

namespace RecordFilter

open RecordFilter.Number

namespace Schema

/-- The state of a walk at the head of its loop. -/
structure Walker where
  schema : Schema
  /-- The names still to be followed, the next one on top. -/
  pending : List String
  segments : List Segment
  steps : UInt64

/-- What one turn of the loop comes to. -/
inductive Turn
  | goesOn (w : Walker)
  | returns (r : Except PathError (List Segment × FieldType))
  /-- The counter was at the greatest word, so the step could not be counted. -/
  | overflows
  /-- No name was left, so the loop is over. -/
  | runsOut

/-- The turn that ends a walk with this outcome. -/
def Turn.ofOutcome : Except PathError (List Segment × FieldType) → Turn
  | .error .overflow => overflows
  | r => returns r

theorem Turn.ofOutcome_cases (r : Except PathError (List Segment × FieldType)) :
    r = .error .overflow ∧ ofOutcome r = overflows ∨
      r ≠ .error .overflow ∧ ofOutcome r = returns r := by
  unfold ofOutcome
  split
  · exact .inl ⟨rfl, rfl⟩
  · exact .inr ⟨‹_›, rfl⟩

namespace Walker

def start (root : Schema) (heads : List String) : Walker := ⟨root, heads, [], 0⟩

/-- One turn of the loop: the next name is taken from the stack and counted. -/
def turn (max : UInt64) (w : Walker) : Turn :=
  match w.pending with
  | [] => .runsOut
  | name :: rest =>
    if w.steps = greatestWord then .overflows
    else if max < w.steps + 1 then .returns (.error (.depthExceeded max))
    else
      match w.schema.field? name with
      | none =>
        match w.schema.alias? name with
        | none => .returns (.error (.unknownField name w.schema.name))
        | some target =>
          match splitSelector target with
          | .error e => .returns (.error e)
          | .ok parts => .goesOn ⟨w.schema, parts ++ rest, w.segments, w.steps + 1⟩
      | some f =>
        let segments := w.segments ++ [f.segment]
        if f.kind.isTerminal then
          if rest.isEmpty then .returns (.ok (segments, f.declared))
          else .returns (.error (.notTerminal f.name w.schema.name f.kind))
        else
          match rest, f.nested with
          | _ :: _, some nested => .goesOn ⟨nested, rest, segments, w.steps + 1⟩
          | _, _ => .returns (.error (.unterminated f.name w.schema.name f.kind))

/-- What the loop has come to in so many turns. -/
def turns (max : UInt64) : Nat → Walker → Turn
  | 0, w => .goesOn w
  | k + 1, w =>
    match w.turn max with
    | .goesOn w => turns max k w
    | t => t

/-- What the walk comes to from here, with room for so many steps. -/
def outcome (max : UInt64) (selector : String) (room : Nat) (w : Walker) :
    Except PathError (List Segment × FieldType) :=
  (walk max selector room w.schema w.pending).map fun r => (w.segments ++ r.1, r.2)

variable {max : UInt64} {room : Nat} {w : Walker}

theorem turn_beyond (hw : w.pending ≠ []) (hsteps : w.steps = max) :
    w.turn max = .ofOutcome (.error (.beyond max)) := by
  obtain ⟨name, rest, hpending⟩ := List.exists_cons_of_ne_nil hw
  rw [turn, hpending, PathError.beyond]
  simp only [hsteps]
  split
  · rfl
  · rename_i hmax
    have hlt : max < max + 1 := by
      rw [UInt64.lt_iff_toNat_lt, toNat_add_one hmax]
      exact Nat.lt_succ_self _
    rw [if_pos hlt]
    rfl

theorem turn_cases (selector : String) (hw : w.pending ≠ [])
    (hsteps : w.steps.toNat + room = max.toNat) :
    w.turn max = .ofOutcome (w.outcome max selector room) ∨
      ∃ w' room', w.turn max = .goesOn w' ∧ w'.pending ≠ [] ∧ room = room' + 1 ∧
        w'.steps.toNat + room' = max.toNat ∧
          w'.outcome max selector room' = w.outcome max selector room := by
  obtain ⟨schema, pending, segments, steps⟩ := w
  obtain ⟨name, rest, rfl⟩ := List.exists_cons_of_ne_nil hw
  dsimp only at hsteps
  cases room with
  | zero => exact .inl (turn_beyond hw (UInt64.toNat.inj hsteps))
  | succ room =>
    have hfits : max.toNat < 2 ^ 64 := max.toNat_lt
    have hsteps_ne : steps ≠ greatestWord := by
      rintro rfl
      rw [show greatestWord.toNat = 2 ^ 64 - 1 from rfl] at hsteps
      omega
    have hroom : ¬ max < steps + 1 := by
      rw [UInt64.lt_iff_toNat_lt, toNat_add_one hsteps_ne]
      omega
    have hnext : (steps + 1).toNat + room = max.toNat := by
      rw [toNat_add_one hsteps_ne]
      omega
    rw [turn, outcome, walk]
    simp only [if_neg hsteps_ne, if_neg hroom]
    cases schema.field? name with
    | none =>
      dsimp only
      cases schema.alias? name with
      | none => exact .inl rfl
      | some target =>
        dsimp only
        cases hsplit : splitSelector target with
        | error e =>
          obtain ⟨rfl, -⟩ := splitSelector_eq_error_iff.mp hsplit
          exact .inl rfl
        | ok parts =>
          have hparts := (splitSelector_eq_ok_iff.mp hsplit).split.ne_nil
          exact .inr ⟨_, room, rfl, List.append_ne_nil_of_left_ne_nil hparts rest, rfl, hnext, rfl⟩
    | some f =>
      dsimp only
      split
      · split
        · exact .inl rfl
        · exact .inl rfl
      · cases rest with
        | nil => exact .inl rfl
        | cons next rest =>
          cases f.nested with
          | none => exact .inl rfl
          | some nested =>
            refine .inr ⟨_, room, rfl, List.cons_ne_nil _ _, rfl, hnext, ?_⟩
            dsimp only [outcome]
            cases walk max selector room nested (next :: rest) with
            | error e => rfl
            | ok r => simp [Except.map]

theorem turns_of_turn {r : Except PathError (List Segment × FieldType)}
    (h : w.turn max = .ofOutcome r) (k : Nat) : w.turns max (k + 1) = .ofOutcome r := by
  rcases Turn.ofOutcome_cases r with ⟨-, hr⟩ | ⟨-, hr⟩
  · rw [turns, h, hr]
  · rw [turns, h, hr]

/-- The loop is over in the turn behind the last step that it has room for, if not before. -/
theorem turns_eq (selector : String) (hw : w.pending ≠ [])
    (hsteps : w.steps.toNat + room = max.toNat) :
    w.turns max (room + 1) = .ofOutcome (w.outcome max selector room) := by
  induction room generalizing w with
  | zero =>
    obtain h | ⟨w', room', -, -, hroom, -⟩ := turn_cases selector hw hsteps
    · exact turns_of_turn h 0
    · cases hroom
  | succ room ih =>
    obtain h | ⟨w', room', h, hw', hroom, hsteps', hsame⟩ := turn_cases selector hw hsteps
    · exact turns_of_turn h (room + 1)
    · cases hroom
      rw [turns, h, ← hsame]
      exact ih hw' hsteps'

theorem turns_ne_runsOut (hw : w.pending ≠ []) (hsteps : w.steps.toNat + room = max.toNat)
    (k : Nat) : w.turns max k ≠ .runsOut := by
  induction k generalizing w room with
  | zero => exact nofun
  | succ k ih =>
    obtain h | ⟨w', room', h, hw', -, hsteps', -⟩ := turn_cases "" hw hsteps
    · rw [turns_of_turn h]
      rcases Turn.ofOutcome_cases (w.outcome max "" room) with ⟨-, hr⟩ | ⟨-, hr⟩
      · rw [hr]
        exact nofun
      · rw [hr]
        exact nofun
    · rw [turns, h]
      exact ih hw' hsteps'

end Walker

/-! ## Selectors that never end -/

/-- However many of the names that a selector leads to are followed, more are left. -/
def Endless (s : Schema) (selector : String) : Prop := ∀ n, Outlasts s selector n

variable {s : Schema} {max : UInt64} {selector head : String} {heads rest : List String}

/-- Aliases whose targets start with aliases among themselves lead on for ever. -/
theorem endless_of_aliases (hs : Built s) {names : List String}
    (halias : ∀ name ∈ names, ∃ target head rest, (name, target) ∈ s.aliases ∧
      IsSelector target (head :: rest) ∧ head ∈ names)
    (hselector : IsSelector selector (head :: rest)) (hhead : head ∈ names) :
    Endless s selector := by
  have hleads : ∀ n, ∀ head ∈ names, ∀ rest, ∃ left,
      Leads s (head :: rest) n [] s left ∧ left ≠ [] := by
    intro n
    induction n with
    | zero => exact fun head _ rest => ⟨_, .here, List.cons_ne_nil head rest⟩
    | succ n ih =>
      intro head hhead rest
      obtain ⟨target, next, others, hmem, hparts, hnext⟩ := halias head hhead
      obtain ⟨left, hleft, hne⟩ := ih next hnext (others ++ rest)
      exact ⟨left, .expand (fun f hf => hs.ne_alias hf hmem) hmem hparts hleft, hne⟩
  intro n
  obtain ⟨left, hleft, hne⟩ := hleads n head hhead rest
  exact ⟨_, _, _, left, hselector, hleft, hne⟩

/-! ## The theorem -/

theorem resolve_ne_overflow (hs : Built s) (hmax : max ≠ greatestWord) :
    s.resolve max selector ≠ .error .overflow := by
  intro h
  obtain - | ⟨-, hwalks⟩ := resolves_of_resolve_error hs h
  obtain - | ⟨-, -, hleft⟩ := hwalks
  cases hleft with
  | overflow heq => exact hmax heq

theorem turns_start (s : Schema) (max : UInt64) (hheads : IsSelector selector heads) :
    ∃ r, (Walker.start s heads).turns max (max.toNat + 1) = .ofOutcome r ∧
      s.resolve max selector = r.map fun r => ⟨s.name, r.1, r.2⟩ := by
  refine ⟨_, Walker.turns_eq selector hheads.split.ne_nil (Nat.zero_add max.toNat), ?_⟩
  rw [resolve_eq hheads, Walker.outcome, Walker.start]
  cases walk max selector max.toNat s heads <;> rfl

/-- What a walk owes to its limit. -/
structure IsBounded (s : Schema) (selector : String) : Prop where
  /-- A selector with an empty segment is refused before the loop. -/
  refused : ∀ max e, splitSelector selector = .error e → s.resolve max selector = .error e
  /-- Below the greatest limit the loop has returned after one turn more than the limit has steps,
  and what it returns is what the selector comes to. -/
  returns : ∀ max ≠ greatestWord, ∀ heads, splitSelector selector = .ok heads →
    ∃ r, (Walker.start s heads).turns max (max.toNat + 1) = .returns r ∧
      s.resolve max selector = r.map fun r => ⟨s.name, r.1, r.2⟩
  /-- At the greatest limit the counter overflows in that turn, if nothing is returned by then. -/
  overflows : ∀ heads, splitSelector selector = .ok heads →
    (∃ r, (Walker.start s heads).turns greatestWord (2 ^ 64) = .returns r ∧
      s.resolve greatestWord selector = r.map fun r => ⟨s.name, r.1, r.2⟩) ∨
    (Walker.start s heads).turns greatestWord (2 ^ 64) = .overflows ∧
      s.resolve greatestWord selector = .error .overflow
  /-- The loop is not left because no name is on the stack. -/
  stays : ∀ max heads, splitSelector selector = .ok heads →
    ∀ k, (Walker.start s heads).turns max k ≠ .runsOut
  settled : ∀ max max', max ≤ max' → s.resolve max selector ≠ .error (.depthExceeded max) →
    s.resolve max' selector = s.resolve max selector
  exceeded : ∀ max ≠ greatestWord,
    s.resolve max selector = .error (.depthExceeded max) ↔ Outlasts s selector max.toNat
  overflowed : s.resolve greatestWord selector = .error .overflow ↔
    Outlasts s selector greatestWord.toNat
  endless : Endless s selector →
    (∀ max ≠ greatestWord, s.resolve max selector = .error (.depthExceeded max)) ∧
      s.resolve greatestWord selector = .error .overflow

/-- Whatever the aliases of a schema lead to, a walk below the greatest limit returns in time, and a
limit that it keeps can be raised. A selector that never ends exceeds each of these limits. -/
theorem isBounded_of_built (hs : Built s) (selector : String) : IsBounded s selector := by
  have hexceeded (max : UInt64) (hmax : max ≠ greatestWord) :
      s.resolve max selector = .error (.depthExceeded max) ↔ Outlasts s selector max.toNat := by
    rw [← PathError.beyond_of_ne hmax]
    exact resolve_eq_beyond_iff hs
  have hoverflowed : s.resolve greatestWord selector = .error .overflow ↔
      Outlasts s selector greatestWord.toNat := by
    rw [← PathError.beyond_greatestWord]
    exact resolve_eq_beyond_iff hs
  refine ⟨?_, ?_, ?_, ?_, ?_, hexceeded, hoverflowed, ?_⟩
  · intro max e h
    rw [resolve, h]
    rfl
  · intro max hmax heads h
    obtain ⟨r, hturns, hresolve⟩ := turns_start s max (splitSelector_eq_ok_iff.mp h)
    rcases Turn.ofOutcome_cases r with ⟨rfl, -⟩ | ⟨-, hr⟩
    · exact absurd hresolve (resolve_ne_overflow hs hmax)
    · exact ⟨r, hturns.trans hr, hresolve⟩
  · intro heads h
    obtain ⟨r, hturns, hresolve⟩ := turns_start s greatestWord (splitSelector_eq_ok_iff.mp h)
    rcases Turn.ofOutcome_cases r with ⟨rfl, hr⟩ | ⟨-, hr⟩
    · exact .inr ⟨hturns.trans hr, hresolve⟩
    · exact .inl ⟨r, hturns.trans hr, hresolve⟩
  · intro max heads h k
    have hheads := splitSelector_eq_ok_iff.mp h
    exact Walker.turns_ne_runsOut hheads.split.ne_nil (Nat.zero_add max.toNat) k
  · intro max max' hle h
    by_cases hmax : max = greatestWord
    · have hgreatest : max' ≤ max := hmax ▸ le_greatestWord max'
      rw [UInt64.le_antisymm hgreatest hle]
    · exact resolve_mono hs (PathError.beyond_of_ne hmax ▸ h) hle
  · intro h
    exact ⟨fun max hmax => (hexceeded max hmax).mpr (h _), hoverflowed.mpr (h _)⟩

/-- Two aliases in a circle, and one that grows. -/
def knots : Schema :=
  .mk "Knot" [⟨"id", none, .scalar .i64, .single, .scalar, none⟩]
    [("back", "forth.id"), ("forth", "back"), ("more", "more.more")]

theorem built_knots : Built knots :=
  .of_eq rfl (by simp [knots, fields])

theorem endless_knots {head : String} (hhead : head ∈ ["back", "forth", "more"])
    (hselector : IsSelector selector (head :: rest)) : Endless knots selector := by
  refine endless_of_aliases built_knots ?_ hselector hhead
  intro name hname
  obtain rfl | rfl | rfl : name = "back" ∨ name = "forth" ∨ name = "more" := by
    simpa using hname
  · exact ⟨"forth.id", _, _, by simp [knots, aliases], splitSelector_eq_ok_iff.mp rfl, by decide⟩
  · exact ⟨"back", _, _, by simp [knots, aliases], splitSelector_eq_ok_iff.mp rfl, by decide⟩
  · exact ⟨"more.more", _, _, by simp [knots, aliases], splitSelector_eq_ok_iff.mp rfl, by decide⟩

theorem knots_bounded :
    Built knots ∧
      (∀ max ≠ greatestWord, knots.resolve max "forth" = .error (.depthExceeded max)) ∧
      (∀ max ≠ greatestWord, knots.resolve max "more" = .error (.depthExceeded max)) ∧
      ∀ max, 1 ≤ max →
        knots.resolve max "id" = .ok ⟨"Knot", [⟨"id", "id", .scalar⟩], .scalar .i64⟩ := by
  have hforth := (isBounded_of_built built_knots "forth").endless
    (endless_knots (by decide) (splitSelector_eq_ok_iff.mp rfl))
  have hmore := (isBounded_of_built built_knots "more").endless
    (endless_knots (by decide) (splitSelector_eq_ok_iff.mp rfl))
  have hid : knots.resolve 1 "id" = .ok ⟨"Knot", [⟨"id", "id", .scalar⟩], .scalar .i64⟩ := rfl
  refine ⟨built_knots, hforth.1, hmore.1, fun max hmax => ?_⟩
  rw [(isBounded_of_built built_knots "id").settled 1 max hmax (by rw [hid]; exact nofun), hid]

/-- At the greatest limit the loop over aliases in a circle is not left with an answer. -/
theorem knots_notReturned :
    Built knots ∧ Endless knots "forth" ∧ splitSelector "forth" = .ok ["forth"] ∧
      (Walker.start knots ["forth"]).turns greatestWord (greatestWord.toNat + 1) = .overflows ∧
        ∀ max, knots.resolve greatestWord "forth" ≠ .error (.depthExceeded max) := by
  have hheads : IsSelector "forth" ["forth"] := splitSelector_eq_ok_iff.mp rfl
  have hendless : Endless knots "forth" := endless_knots (by decide) hheads
  have hresolve : knots.resolve greatestWord "forth" = .error .overflow :=
    resolve_of_outlasts built_knots (hendless _)
  obtain ⟨r, hturns, hmap⟩ := turns_start knots greatestWord hheads
  obtain rfl : r = .error .overflow := map_eq_error_iff.mp (hmap.symm.trans hresolve)
  refine ⟨built_knots, hendless, rfl, hturns, fun max => ?_⟩
  rw [hresolve]
  exact nofun

end Schema

end RecordFilter
