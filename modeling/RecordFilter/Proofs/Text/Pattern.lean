import Mathlib.Data.List.Chain
import Mathlib.Logic.Relation
import RecordFilter.Proofs.Text.Utf8
import RecordFilter.Text.Pattern

/-!
# Texts that follow a pattern

A text follows the parts of a pattern if it can be cut so that each literal is its own piece and
each wildcard is any piece. The matcher takes every literal between two wildcards at its first place
and never goes back. That loses nothing: what may follow a later place may follow the first one too,
as the wildcard behind the literal takes up the difference.
-/

namespace RecordFilter.Text.Pattern

open Relation (ReflTransGen)

/-- The text is the pieces of the parts, one behind the other. -/
inductive Follows : List Part → List Char → Prop
  | nil : Follows [] []
  | literal (l : List Char) {parts : List Part} {s : List Char} :
      Follows parts s → Follows (.literal l :: parts) (l ++ s)
  | anyRun (run : List Char) {parts : List Part} {s : List Char} :
      Follows parts s → Follows (.anyRun :: parts) (run ++ s)

variable {parts : List Part} {l s t : List Char}

theorem follows_nil_iff : Follows [] s ↔ s = [] :=
  ⟨fun | .nil => rfl, fun h => h ▸ .nil⟩

theorem follows_literal_iff : Follows (.literal l :: parts) s ↔ ∃ t, s = l ++ t ∧ Follows parts t :=
  ⟨fun | .literal _ h => ⟨_, rfl, h⟩, fun ⟨_, hs, h⟩ => hs ▸ .literal l h⟩

theorem follows_anyRun_iff : Follows (.anyRun :: parts) s ↔ ∃ t, t <:+ s ∧ Follows parts t :=
  ⟨fun | .anyRun run h => ⟨_, ⟨run, rfl⟩, h⟩, fun ⟨_, ⟨run, hs⟩, h⟩ => hs ▸ .anyRun run h⟩

theorem Follows.of_suffix (h : Follows (.anyRun :: parts) t) (ht : t <:+ s) :
    Follows (.anyRun :: parts) s := by
  obtain ⟨u, hu, hparts⟩ := follows_anyRun_iff.mp h
  exact follows_anyRun_iff.mpr ⟨u, hu.trans ht, hparts⟩

theorem follows_anyRun_anyRun_iff :
    Follows (.anyRun :: .anyRun :: parts) s ↔ Follows (.anyRun :: parts) s := by
  constructor
  · intro h
    obtain ⟨t, ht, hparts⟩ := follows_anyRun_iff.mp h
    exact hparts.of_suffix ht
  · exact fun h => .anyRun [] h

theorem follows_anyRun_nil (s : List Char) : Follows [.anyRun] s :=
  follows_anyRun_iff.mpr ⟨[], List.nil_suffix, .nil⟩

theorem follows_lastLiteral_iff : Follows [.anyRun, .literal l] s ↔ l <:+ s := by
  simp only [follows_anyRun_iff, follows_literal_iff, follows_nil_iff]
  constructor
  · rintro ⟨t, ht, _, rfl, rfl⟩
    rwa [List.append_nil] at ht
  · exact fun h => ⟨l, h, [], (List.append_nil l).symm, rfl⟩

/-! ## What patterns are made of -/

/-- Literals and wildcards take turns, and no literal is empty. -/
structure Alternates (parts : List Part) : Prop where
  chain : parts.IsChain fun a b => a = .anyRun ↔ b ≠ .anyRun
  filled : ∀ l, .literal l ∈ parts → l ≠ []

theorem alternates_nil : Alternates [] := ⟨.nil, nofun⟩

theorem alternates_anyRun : Alternates [.anyRun] := ⟨.singleton _, by simp⟩

theorem alternates_literal (hl : l ≠ []) : Alternates [.literal l] := ⟨.singleton _, by simpa⟩

theorem Alternates.tail {part : Part} (h : Alternates (part :: parts)) : Alternates parts :=
  ⟨h.chain.tail, fun l hl => h.filled l (List.mem_cons_of_mem _ hl)⟩

theorem Alternates.head_filled (h : Alternates (.literal l :: parts)) : l ≠ [] :=
  h.filled l List.mem_cons_self

theorem Alternates.behind_literal {part : Part} (h : Alternates (.literal l :: part :: parts)) :
    part = .anyRun := by
  have hchain := (List.isChain_cons_cons.mp h.chain).1
  simpa using hchain

theorem Alternates.literal_cons (h : Alternates (.anyRun :: parts)) (hl : l ≠ []) :
    Alternates (.literal l :: .anyRun :: parts) where
  chain := List.isChain_cons_cons.mpr ⟨by simp, h.chain⟩
  filled := by
    intro l' hl'
    rcases List.mem_cons.mp hl' with heq | hmem
    · exact Part.literal.inj heq ▸ hl
    · exact h.filled l' hmem

theorem Alternates.anyRun_cons (h : Alternates (.literal l :: parts)) :
    Alternates (.anyRun :: .literal l :: parts) where
  chain := List.isChain_cons_cons.mpr ⟨by simp, h.chain⟩
  filled := fun l' hl' => h.filled l' (by simpa using hl')

theorem exists_alternates_addRun (h : Alternates parts) :
    ∃ rest, addRun parts = .anyRun :: rest ∧ Alternates (.anyRun :: rest) := by
  cases parts with
  | nil => exact ⟨[], rfl, alternates_anyRun⟩
  | cons part parts =>
    cases part with
    | anyRun => exact ⟨parts, rfl, h⟩
    | literal l => exact ⟨.literal l :: parts, rfl, h.anyRun_cons⟩

theorem literalOf_cases (text : List Char) :
    literalOf text = [] ∨ ∃ l, l ≠ [] ∧ literalOf text = [.literal l] := by
  cases text with
  | nil => exact .inl rfl
  | cons c text => exact .inr ⟨lower (c :: text), by simp [lower_eq_nil_iff], rfl⟩

theorem alternates_joinRuns (texts : List (List Char)) : Alternates (joinRuns texts) := by
  induction texts with
  | nil => exact alternates_nil
  | cons text texts ih =>
    cases texts with
    | nil =>
      rw [joinRuns]
      obtain h | ⟨l, hl, h⟩ := literalOf_cases text
      · rw [h]
        exact alternates_nil
      · rw [h]
        exact alternates_literal hl
    | cons next texts =>
      obtain ⟨rest, hrest, hruns⟩ := exists_alternates_addRun ih
      rw [joinRuns, hrest]
      · obtain h | ⟨l, hl, h⟩ := literalOf_cases text
        · rw [h]
          exact hruns
        · rw [h]
          exact hruns.literal_cons hl
      · exact List.cons_ne_nil _ _

theorem alternates_ofWildcard (wildcard : Char) (raw : String) :
    Alternates (ofWildcard wildcard raw).parts :=
  alternates_joinRuns _

theorem parts_containing (keyword : String) :
    (containing keyword).parts =
      if keyword.toList = [] then [.anyRun]
      else [.anyRun, .literal (lower keyword.toList), .anyRun] := by
  rw [containing]
  simp only [String.toList_eq_nil_iff, String.isEmpty_iff]
  split <;> rfl

theorem alternates_containing (keyword : String) : Alternates (containing keyword).parts := by
  rw [parts_containing]
  split
  · exact alternates_anyRun
  · rename_i hkeyword
    exact (alternates_anyRun.literal_cons (mt (lower_eq_nil_iff _).mp hkeyword)).anyRun_cons

theorem literal_mem_literalOf_iff {text : List Char} :
    .literal l ∈ literalOf text ↔ text ≠ [] ∧ l = lower text := by
  cases text with
  | nil => simp [literalOf]
  | cons c text => simp [literalOf]

theorem literal_mem_addRun_iff : .literal l ∈ addRun parts ↔ .literal l ∈ parts := by
  unfold addRun
  split <;> simp

theorem literal_mem_joinRuns_iff {texts : List (List Char)} :
    .literal l ∈ joinRuns texts ↔ ∃ text ∈ texts, text ≠ [] ∧ l = lower text := by
  induction texts with
  | nil => simp [joinRuns]
  | cons text texts ih =>
    cases texts with
    | nil => simp [joinRuns, literal_mem_literalOf_iff]
    | cons next texts =>
      rw [joinRuns, List.mem_append, literal_mem_literalOf_iff, literal_mem_addRun_iff, ih]
      · simp only [List.exists_mem_cons_iff]
      · exact List.cons_ne_nil _ _

/-! ## The first place -/

section FirstPlace

variable {α : Type} [BEq α] [LawfulBEq α] {literal text : List α} {place : Nat}

theorem exists_eq_of_firstPlace (h : firstPlace literal text = some place) :
    ∃ front rest, text = front ++ (literal ++ rest) ∧ front.length = place := by
  induction text generalizing place with
  | nil =>
    simp only [firstPlace, Option.ite_none_right_eq_some, List.isEmpty_iff] at h
    obtain ⟨rfl, h⟩ := h
    exact ⟨[], [], rfl, Option.some.inj h⟩
  | cons x text ih =>
    rw [firstPlace] at h
    split at h
    · rename_i hprefix
      obtain ⟨rest, hrest⟩ := List.isPrefixOf_iff_prefix.mp hprefix
      exact ⟨[], rest, hrest.symm, Option.some.inj h⟩
    · obtain ⟨next, hnext, rfl⟩ := Option.map_eq_some_iff.mp h
      obtain ⟨front, rest, rfl, rfl⟩ := ih hnext
      exact ⟨x :: front, rest, rfl, rfl⟩

theorem firstPlace_of_prefix (h : literal <+: text) : firstPlace literal text = some 0 := by
  cases text with
  | nil => rw [firstPlace, List.prefix_nil.mp h]; rfl
  | cons x text => rw [firstPlace, if_pos (List.isPrefixOf_iff_prefix.mpr h)]

theorem exists_firstPlace_le (front literal rest : List α) :
    ∃ place ≤ front.length, firstPlace literal (front ++ (literal ++ rest)) = some place := by
  induction front with
  | nil => exact ⟨0, Nat.le_refl 0, firstPlace_of_prefix ⟨rest, rfl⟩⟩
  | cons x front ih =>
    obtain ⟨place, hle, hplace⟩ := ih
    rw [List.cons_append, firstPlace]
    split
    · exact ⟨0, Nat.zero_le _, rfl⟩
    · rw [hplace]
      exact ⟨place + 1, Nat.succ_le_succ hle, rfl⟩

theorem isSome_firstPlace_iff : (firstPlace literal text).isSome ↔ literal <:+: text := by
  constructor
  · intro h
    obtain ⟨place, hplace⟩ := Option.isSome_iff_exists.mp h
    obtain ⟨front, rest, rfl, -⟩ := exists_eq_of_firstPlace hplace
    exact ⟨front, rest, List.append_assoc front literal rest⟩
  · rintro ⟨front, rest, rfl⟩
    obtain ⟨place, -, hplace⟩ := exists_firstPlace_le front literal rest
    rw [List.append_assoc, hplace]
    rfl

end FirstPlace

theorem utf8_around (front l rest : List Char) :
    utf8 (front ++ (l ++ rest)) = utf8 front ++ (utf8 l ++ utf8 rest) := by
  rw [utf8_append, utf8_append]

theorem exists_eq_of_firstPlace_utf8 {place : Nat} (hl : l ≠ [])
    (h : firstPlace (utf8 l) (utf8 s) = some place) :
    ∃ front rest, s = front ++ (l ++ rest) ∧ (utf8 front).length = place ∧
      ∀ front' rest', s = front' ++ (l ++ rest') → rest' <:+ rest := by
  obtain ⟨_, _, hbytes, rfl⟩ := exists_eq_of_firstPlace h
  obtain ⟨front, rest, rfl, rfl, rfl⟩ := exists_eq_append_of_utf8 hl hbytes
  refine ⟨front, rest, rfl, rfl, fun front' rest' hs => ?_⟩
  rw [hs, utf8_around] at h hbytes
  obtain ⟨place, hle, hplace⟩ := exists_firstPlace_le (utf8 front') (utf8 l) (utf8 rest')
  obtain rfl := Option.some.inj (h.symm.trans hplace)
  have hlength := congrArg List.length hbytes
  simp only [List.length_append] at hlength
  have hsuffix : utf8 rest <:+ utf8 front' ++ (utf8 l ++ utf8 rest') := by
    rw [hbytes, ← List.append_assoc]
    exact List.suffix_append _ _
  have hsuffix' : utf8 rest' <:+ utf8 front' ++ (utf8 l ++ utf8 rest') := by
    rw [← List.append_assoc]
    exact List.suffix_append _ _
  exact utf8_suffix_iff.mp (List.suffix_of_suffix_length_le hsuffix' hsuffix (by omega))

theorem ne_append_of_firstPlace_utf8 (h : firstPlace (utf8 l) (utf8 s) = none)
    (front rest : List Char) : s ≠ front ++ (l ++ rest) := by
  rintro rfl
  obtain ⟨place, -, hplace⟩ := exists_firstPlace_le (utf8 front) (utf8 l) (utf8 rest)
  rw [utf8_around, hplace] at h
  cases h

/-! ## Turns -/

/-- The place is between two characters of the text, or at one of its ends. -/
def OnBoundary (s : List Char) (pos : Nat) : Prop :=
  ∃ front back, s = front ++ back ∧ (utf8 front).length = pos

theorem drop_utf8 (front back : List Char) :
    (utf8 (front ++ back)).drop (utf8 front).length = utf8 back := by
  rw [utf8_append, List.drop_left]

theorem turn_middle (hl : l ≠ []) (front back : List Char) :
    (∃ run rest, back = run ++ (l ++ rest) ∧
        turn (utf8 (front ++ back)) false false (utf8 front).length (.literal l) =
          .goOn (utf8 (front ++ (run ++ l))).length ∧
        ∀ run' rest', back = run' ++ (l ++ rest') → rest' <:+ rest) ∨
      (∀ run rest, back ≠ run ++ (l ++ rest)) ∧
        turn (utf8 (front ++ back)) false false (utf8 front).length (.literal l) =
          .answer false := by
  rw [turn, literalTurn, drop_utf8]
  cases h : firstPlace (utf8 l) (utf8 back) with
  | none => exact .inr ⟨ne_append_of_firstPlace_utf8 h, rfl⟩
  | some place =>
    obtain ⟨run, rest, hback, rfl, hleast⟩ := exists_eq_of_firstPlace_utf8 hl h
    refine .inl ⟨run, rest, hback, ?_, hleast⟩
    simp only [utf8_around, List.length_append, Nat.add_assoc]

theorem turn_last (front back : List Char) :
    turn (utf8 (front ++ back)) false true (utf8 front).length (.literal l) =
      .answer (l.isSuffixOf back) := by
  have hbytes : ((utf8 front).length + (utf8 l).length ≤ (utf8 (front ++ back)).length ∧
      utf8 l <:+ utf8 (front ++ back)) ↔ utf8 l <:+ utf8 back := by
    rw [utf8_append, List.length_append, Nat.add_le_add_iff_left]
    constructor
    · rintro ⟨hroom, hsuffix⟩
      exact List.suffix_of_suffix_length_le hsuffix (List.suffix_append _ _) hroom
    · exact fun h => ⟨h.length_le, h.trans (List.suffix_append _ _)⟩
  rw [turn, literalTurn, Turn.answer.injEq, Bool.eq_iff_iff]
  simp only [Bool.and_eq_true, decide_eq_true_eq, List.isSuffixOf_iff_suffix]
  rw [hbytes, utf8_suffix_iff]

theorem turn_whole (pos : Nat) : turn (utf8 s) true true pos (.literal l) = .answer (s == l) := by
  rw [turn, literalTurn, Turn.answer.injEq, Bool.eq_iff_iff, beq_iff_eq, beq_iff_eq, utf8_inj]

theorem turn_front (pos : Nat) :
    turn (utf8 s) true false pos (.literal l) =
      if l <+: s then .goOn (utf8 l).length else .answer false := by
  simp only [turn, literalTurn, List.isPrefixOf_iff_prefix, utf8_prefix_iff]

theorem onBoundary_of_turn {part : Part} {isFirst isLast : Bool} {pos next : Nat}
    (hpart : ∀ l, part = .literal l → l ≠ []) (hpos : OnBoundary s pos)
    (h : turn (utf8 s) isFirst isLast pos part = .goOn next) : OnBoundary s next := by
  cases part with
  | anyRun => exact Turn.goOn.inj h ▸ hpos
  | literal l =>
    match isFirst, isLast with
    | true, true => rw [turn_whole] at h; cases h
    | true, false =>
      rw [turn_front] at h
      split at h
      · rename_i hprefix
        obtain ⟨back, rfl⟩ := hprefix
        exact ⟨l, back, rfl, Turn.goOn.inj h⟩
      · cases h
    | false, true =>
      obtain ⟨front, back, rfl, rfl⟩ := hpos
      rw [turn_last] at h
      cases h
    | false, false =>
      obtain ⟨front, back, rfl, rfl⟩ := hpos
      obtain ⟨run, rest, rfl, hturn, -⟩ | ⟨-, hturn⟩ := turn_middle (hpart l rfl) front back
      · rw [hturn] at h
        exact ⟨front ++ (run ++ l), rest, by simp only [List.append_assoc], Turn.goOn.inj h⟩
      · rw [hturn] at h
        cases h

/-! ## Matching -/

theorem takeTurns_cons (text : List UInt8) (isFirst : Bool) (pos : Nat) (part : Part) :
    takeTurns text isFirst pos (part :: parts) =
      match turn text isFirst parts.isEmpty pos part with
      | .answer isMatch => isMatch
      | .goOn pos => takeTurns text false pos parts := rfl

/-- A place for the literal that is not the first leaves the same choice to what follows. -/
theorem follows_anyRun_literal_iff {rest run : List Char}
    (hleast : ∀ run' rest', run ++ (l ++ rest) = run' ++ (l ++ rest') → rest' <:+ rest) :
    Follows (.anyRun :: .literal l :: .anyRun :: parts) (run ++ (l ++ rest)) ↔
      Follows (.anyRun :: parts) rest := by
  constructor
  · intro h
    obtain ⟨_, ⟨run', hrun⟩, hliteral⟩ := follows_anyRun_iff.mp h
    obtain ⟨rest', rfl, hrest⟩ := follows_literal_iff.mp hliteral
    exact hrest.of_suffix (hleast run' rest' hrun.symm)
  · exact fun h => .anyRun run (.literal l h)

theorem takeTurns_eq_true_iff (h : Alternates parts) (front back : List Char) :
    takeTurns (utf8 (front ++ back)) false (utf8 front).length parts = true ↔
      Follows (.anyRun :: parts) back := by
  induction parts generalizing front back with
  | nil => exact iff_of_true rfl (follows_anyRun_nil back)
  | cons part parts ih =>
    cases part with
    | anyRun =>
      rw [follows_anyRun_anyRun_iff, ← ih h.tail front back, takeTurns_cons, turn]
    | literal l =>
      cases parts with
      | nil =>
        rw [takeTurns_cons, List.isEmpty_nil, turn_last, follows_lastLiteral_iff]
        exact List.isSuffixOf_iff_suffix
      | cons part parts =>
        obtain rfl := h.behind_literal
        rw [takeTurns_cons, List.isEmpty_cons]
        obtain ⟨run, rest, rfl, hturn, hleast⟩ | ⟨hnone, hturn⟩ :=
          turn_middle h.head_filled front back
        · have hcut : front ++ (run ++ (l ++ rest)) = front ++ (run ++ l) ++ rest := by
            simp only [List.append_assoc]
          rw [hturn, follows_anyRun_literal_iff hleast, ← follows_anyRun_anyRun_iff, hcut]
          exact ih h.tail (front ++ (run ++ l)) rest
        · rw [hturn]
          refine iff_of_false Bool.false_ne_true fun hfollows => ?_
          obtain ⟨_, ⟨run, hrun⟩, hliteral⟩ := follows_anyRun_iff.mp hfollows
          obtain ⟨rest, rfl, -⟩ := follows_literal_iff.mp hliteral
          exact hnone run rest hrun.symm

theorem isMatch_iff_follows {p : Pattern} (h : Alternates p.parts) (candidate : String) :
    p.isMatch candidate = true ↔ Follows p.parts (lower candidate.toList) := by
  obtain ⟨parts⟩ := p
  generalize hs : lower candidate.toList = s
  cases parts with
  | nil =>
    rw [isMatch, hs, follows_nil_iff, ← utf8_inj]
    exact List.isEmpty_iff
  | cons part parts =>
    have hturns : isMatch ⟨part :: parts⟩ candidate =
        takeTurns (utf8 s) true 0 (part :: parts) := by
      rw [isMatch, hs]
      rfl
    rw [hturns, takeTurns_cons]
    cases part with
    | anyRun => exact takeTurns_eq_true_iff h.tail [] s
    | literal l =>
      rw [follows_literal_iff]
      cases parts with
      | nil =>
        rw [List.isEmpty_nil, turn_whole]
        simp [follows_nil_iff]
      | cons part parts =>
        obtain rfl := h.behind_literal
        rw [List.isEmpty_cons, turn_front]
        by_cases hprefix : l <+: s
        · obtain ⟨back, rfl⟩ := hprefix
          have hback := takeTurns_eq_true_iff h.tail l back
          rw [follows_anyRun_anyRun_iff] at hback
          rw [if_pos (List.prefix_append l back)]
          simpa only [List.append_cancel_left_eq, exists_eq_left'] using hback
        · rw [if_neg hprefix]
          refine iff_of_false Bool.false_ne_true ?_
          rintro ⟨back, rfl, -⟩
          exact hprefix (List.prefix_append l back)

/-! ## Where the matcher goes -/

/-- Which part has its turn: whether it is the first one, from where, and what comes behind. -/
structure Stage where
  isFirst : Bool
  pos : Nat
  parts : List Part

/-- The matcher goes on from one part to the next. -/
inductive Goes (text : List UInt8) : Stage → Stage → Prop
  | on {isFirst : Bool} {pos next : Nat} {part : Part} {rest : List Part}
      (h : turn text isFirst rest.isEmpty pos part = .goOn next) :
      Goes text ⟨isFirst, pos, part :: rest⟩ ⟨false, next, rest⟩

/-- The stages that the matcher comes to. -/
def Visits (p : Pattern) (candidate : String) : Stage → Prop :=
  ReflTransGen (Goes (utf8 (lower candidate.toList))) ⟨true, 0, p.parts⟩

/-- What holds at every stage. -/
structure WellPlaced (s : List Char) (stage : Stage) : Prop where
  alternates : Alternates stage.parts
  onBoundary : OnBoundary s stage.pos

theorem WellPlaced.goes {stage next : Stage} (h : WellPlaced s stage)
    (hgoes : Goes (utf8 s) stage next) : WellPlaced s next := by
  cases hgoes with
  | on hturn =>
    refine ⟨h.alternates.tail, onBoundary_of_turn ?_ h.onBoundary hturn⟩
    rintro l rfl
    exact h.alternates.head_filled

theorem wellPlaced_of_visits {p : Pattern} {candidate : String} (h : Alternates p.parts)
    {stage : Stage} (hvisits : p.Visits candidate stage) :
    WellPlaced (lower candidate.toList) stage := by
  induction hvisits with
  | refl => exact ⟨h, [], _, rfl, rfl⟩
  | tail _ hgoes ih => exact ih.goes hgoes

/-- The matcher decides what the parts of the pattern say. -/
structure MatchesParts (p : Pattern) (candidate : String) : Prop where
  follows : p.isMatch candidate = true ↔ Follows p.parts (lower candidate.toList)
  onBoundary : ∀ stage, p.Visits candidate stage → OnBoundary (lower candidate.toList) stage.pos
  /-- The last literal stands behind all that was taken before. -/
  room : ∀ pos l, p.Visits candidate ⟨false, pos, [.literal l]⟩ →
    takeTurns (utf8 (lower candidate.toList)) false pos [.literal l] = true →
      ∃ front run, lower candidate.toList = front ++ (run ++ l) ∧ (utf8 front).length = pos

theorem matchesParts_of_alternates {p : Pattern} (h : Alternates p.parts) (candidate : String) :
    MatchesParts p candidate where
  follows := isMatch_iff_follows h candidate
  onBoundary := fun _ hvisits => (wellPlaced_of_visits h hvisits).onBoundary
  room := by
    intro pos l hvisits hlast
    obtain ⟨front, back, hs, rfl⟩ := (wellPlaced_of_visits h hvisits).onBoundary
    rw [hs, takeTurns_cons, List.isEmpty_nil, turn_last] at hlast
    obtain ⟨run, rfl⟩ := List.isSuffixOf_iff_suffix.mp hlast
    exact ⟨front, run, hs, rfl⟩

theorem follows_containing_iff (keyword : String) :
    Follows (containing keyword).parts s ↔ lower keyword.toList <:+: s := by
  rw [parts_containing]
  split
  · rename_i hkeyword
    rw [hkeyword]
    exact iff_of_true (follows_anyRun_nil s) List.nil_infix
  · constructor
    · intro h
      obtain ⟨_, ⟨run, rfl⟩, hliteral⟩ := follows_anyRun_iff.mp h
      obtain ⟨rest, rfl, -⟩ := follows_literal_iff.mp hliteral
      exact ⟨run, rest, by rw [List.append_assoc]⟩
    · rintro ⟨run, rest, rfl⟩
      rw [List.append_assoc]
      exact .anyRun run (.literal _ (follows_anyRun_nil rest))

/-- Patterns of either form match just the texts that follow their parts. The matcher never stops
inside a character. -/
theorem matchesParts_ofWildcard_containing (wildcard : Char) (raw keyword candidate : String) :
    MatchesParts (ofWildcard wildcard raw) candidate ∧
      MatchesParts (containing keyword) candidate ∧
        ((containing keyword).isMatch candidate = true ↔
          lower keyword.toList <:+: lower candidate.toList) := by
  have hcontaining := matchesParts_of_alternates (alternates_containing keyword) candidate
  refine ⟨matchesParts_of_alternates (alternates_ofWildcard wildcard raw) candidate,
    hcontaining, ?_⟩
  rw [hcontaining.follows, follows_containing_iff]

example : (ofWildcard '*' "ab*ba").isMatch "aBa" = false := by decide

/-! ## Reading what was written -/

theorem read_flatMap {ι τ : Type} {read : List Char → Option (List τ)} {write : ι → List Char}
    {tokens : ι → List τ}
    (h : ∀ item rest, read (write item ++ rest) = (read rest).map (tokens item ++ ·))
    (items : List ι) (rest : List Char) :
    read (items.flatMap write ++ rest) = (read rest).map (items.flatMap tokens ++ ·) := by
  induction items with
  | nil => simp
  | cons item items ih =>
    rw [List.flatMap_cons, List.append_assoc, h, ih, Option.map_map]
    simp only [Function.comp_def, List.flatMap_cons, List.append_assoc]

end RecordFilter.Text.Pattern
