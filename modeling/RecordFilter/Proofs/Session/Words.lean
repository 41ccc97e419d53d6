import Mathlib.Algebra.Order.BigOperators.Group.List
import Mathlib.Algebra.Order.Group.Nat
import RecordFilter.Proofs.Session.Counters

/-!
# Tallies as words

The metrics hold the words of the tallies. Those of the whole program wrap around, and those of a
schema stay at the greatest word. As long as a number fits a word, the word is the number.
-/

namespace RecordFilter

open RecordFilter.Number

/-- The word of a number that wraps around. -/
def wrapped (n : Nat) : UInt64 := .ofNat n

/-- The word of a number that stays at the greatest word. -/
def saturated (n : Nat) : UInt64 := .ofNat (min n (2 ^ 64 - 1))

theorem toNat_wrapped (n : Nat) : (wrapped n).toNat = n % 2 ^ 64 := UInt64.toNat_ofNat

theorem toNat_saturated (n : Nat) : (saturated n).toNat = min n (2 ^ 64 - 1) :=
  UInt64.toNat_ofNat_of_lt' (by show _ < 2 ^ 64; omega)

theorem wrapped_succ (n : Nat) : wrapped (n + 1) = wrappingSucc (wrapped n) :=
  UInt64.ofNat_add n 1

theorem saturated_succ (n : Nat) : saturated (n + 1) = saturatingSucc (saturated n) := by
  apply UInt64.toNat.inj
  rw [toNat_saturatingSucc, toNat_saturated, toNat_saturated,
    show greatestWord.toNat = 2 ^ 64 - 1 from rfl]
  omega

/-! ## Counting -/

/-- The words of the tally. -/
def Tally.words (word : Nat → UInt64) (t : Tally) : Counters where
  compileCalls := word t.compileCalls
  compileFailures := word t.compileFailures
  comparisons := word t.comparisons
  terms := word t.terms
  skipped := word t.skipped

theorem Tally.words_add {word : Nat → UInt64} {succ : UInt64 → UInt64}
    (h : ∀ n, word (n + 1) = succ (word n)) (t : Tally) (e : Event) :
    (t + .ofEvent e).words word = (t.words word).add succ e := by
  cases e with
  | compileFinish schema ok =>
    cases ok <;> simp [ofEvent, words, Counters.add, add_def, zero_def, h]
  | _ => simp [ofEvent, words, Counters.add, add_def, zero_def, h]

theorem map_changeEntry {α β : Type} (f : α → β) (change : α → α) (change' : β → β)
    (h : ∀ a, f (change a) = change' (f a)) (name : String) (empty : α)
    (entries : List (String × α)) :
    (changeEntry name empty change entries).map (Prod.map id f) =
      changeEntry name (f empty) change' (entries.map (Prod.map id f)) := by
  induction entries with
  | nil => simp [changeEntry, h]
  | cons entry rest ih =>
    obtain ⟨n, a⟩ := entry
    simp only [changeEntry, List.map_cons, Prod.map_apply, id_eq]
    split
    · simp [h]
    · split
      · simp [h]
      · simp [ih]

namespace Metrics

/-- The counters are the words of these tallies, of the whole program and of each schema. -/
structure Holds (m : Metrics) (total : Tally) (shares : List (String × Tally)) : Prop where
  totals : m.totals = total.words wrapped
  schemas : m.schemas = shares.map (Prod.map id (Tally.words saturated))

variable {m : Metrics} {total : Tally} {shares : List (String × Tally)}

theorem holds_empty : Holds {} 0 [] := ⟨rfl, rfl⟩

theorem totals_add (m : Metrics) (e : Event) :
    (m.add e).totals = m.totals.add wrappingSucc e := by
  cases e with
  | compileFinish _ ok => cases ok <;> rfl
  | _ => rfl

theorem schemas_add (m : Metrics) (e : Event) :
    (m.add e).schemas = match e.counted? with
      | some schema => changeEntry schema {} (·.add saturatingSucc e) m.schemas
      | none => m.schemas := by
  cases e with
  | compileFinish _ ok => cases ok <;> rfl
  | _ => rfl

theorem Holds.add (h : m.Holds total shares) (e : Event) :
    (m.add e).Holds (total + .ofEvent e) (shareOut shares e) where
  totals := by rw [totals_add, h.totals, Tally.words_add wrapped_succ]
  schemas := by
    rw [schemas_add, h.schemas, shareOut]
    cases e.counted? with
    | none => rfl
    | some schema =>
      exact (map_changeEntry (Tally.words saturated) (· + .ofEvent e) (·.add saturatingSucc e)
        (fun t => Tally.words_add saturated_succ t e) schema 0 shares).symm

theorem Holds.count (h : m.Holds total shares) (es : List Event) :
    (m.count es).Holds (total + .ofEvents es) (es.foldl shareOut shares) := by
  induction es generalizing m total shares with
  | nil => exact (add_zero total).symm ▸ h
  | cons e es ih =>
    rw [Metrics.count, List.foldl_cons, List.foldl_cons, Tally.ofEvents_cons, ← add_assoc]
    exact ih (h.add e)

end Metrics

/-! ## Numbers that fit a word -/

inductive Counter
  | compileCalls
  | compileFailures
  | comparisons
  | terms
  | skipped

def Tally.get (t : Tally) : Counter → Nat
  | .compileCalls => t.compileCalls
  | .compileFailures => t.compileFailures
  | .comparisons => t.comparisons
  | .terms => t.terms
  | .skipped => t.skipped

def Counters.get (c : Counters) : Counter → UInt64
  | .compileCalls => c.compileCalls
  | .compileFailures => c.compileFailures
  | .comparisons => c.comparisons
  | .terms => c.terms
  | .skipped => c.skipped

theorem Tally.eq_of_get {a b : Tally} (h : ∀ counter, a.get counter = b.get counter) : a = b := by
  obtain ⟨_, _, _, _, _⟩ := a
  obtain ⟨_, _, _, _, _⟩ := b
  simp only [Tally.mk.injEq]
  exact ⟨h .compileCalls, h .compileFailures, h .comparisons, h .terms, h .skipped⟩

theorem Tally.get_words (word : Nat → UInt64) (t : Tally) (counter : Counter) :
    (t.words word).get counter = word (t.get counter) := by
  cases counter <;> rfl

theorem Tally.get_sum (ts : List Tally) (counter : Counter) :
    ts.sum.get counter = (ts.map (·.get counter)).sum := by
  induction ts with
  | nil => cases counter <;> rfl
  | cons t ts ih =>
    rw [List.sum_cons, List.map_cons, List.sum_cons, ← ih]
    cases counter <;> rfl

namespace Metrics

/-- The counter of the whole program has come to the number, and those of the schemas have in
sum. -/
structure Counts (m : Metrics) (counter : Counter) (n : Nat) : Prop where
  total : (m.totals.get counter).toNat = n
  sum : (m.schemas.map fun entry => (entry.2.get counter).toNat).sum = n

theorem Holds.counts {m : Metrics} {total : Tally} {shares : List (String × Tally)}
    (h : m.Holds total shares) (hshares : (shares.map Prod.snd).sum = total) {counter : Counter}
    (hfits : total.get counter < 2 ^ 64) : m.Counts counter (total.get counter) where
  total := by
    rw [h.totals, Tally.get_words, toNat_wrapped, Nat.mod_eq_of_lt hfits]
  sum := by
    have hsum : total.get counter = (shares.map fun share => share.2.get counter).sum := by
      rw [← hshares, Tally.get_sum, List.map_map]
      rfl
    rw [h.schemas, List.map_map, hsum]
    refine congrArg List.sum (List.map_congr_left fun share hshare => ?_)
    have hle : share.2.get counter ≤ total.get counter := by
      rw [hsum]
      exact List.le_sum_of_mem (List.mem_map_of_mem hshare)
    show ((share.2.words saturated).get counter).toNat = share.2.get counter
    rw [Tally.get_words, toNat_saturated]
    omega

end Metrics

end RecordFilter
