import Mathlib.Algebra.BigOperators.Group.List.Basic
import Mathlib.Tactic.Abel
import RecordFilter.Session.Metrics

/-!
# Tallies

Exact numbers of what events count. What an event adds to the tally of all it adds to that of one
schema too, or it adds nothing. So the tally of all is the sum over the schemas at all times.
-/

namespace RecordFilter

/-- The numbers of what the counters count. -/
structure Tally where
  compileCalls : Nat := 0
  compileFailures : Nat := 0
  comparisons : Nat := 0
  terms : Nat := 0
  skipped : Nat := 0

namespace Tally

instance : Add Tally where
  add a b :=
    { compileCalls := a.compileCalls + b.compileCalls
      compileFailures := a.compileFailures + b.compileFailures
      comparisons := a.comparisons + b.comparisons
      terms := a.terms + b.terms
      skipped := a.skipped + b.skipped }

instance : Zero Tally where
  zero := {}

theorem add_def (a b : Tally) : a + b =
    ⟨a.compileCalls + b.compileCalls, a.compileFailures + b.compileFailures,
      a.comparisons + b.comparisons, a.terms + b.terms, a.skipped + b.skipped⟩ := rfl

theorem zero_def : (0 : Tally) = {} := rfl

instance : AddCommMonoid Tally where
  add_assoc a b c := by simp only [add_def, Nat.add_assoc]
  zero_add a := by simp only [add_def, zero_def, Nat.zero_add]
  add_zero a := by simp only [add_def, zero_def, Nat.add_zero]
  add_comm a b := by simp only [add_def, Nat.add_comm]
  nsmul := nsmulRec

/-- What one event counts. -/
def ofEvent : Event → Tally
  | .compileStart _ => { compileCalls := 1 }
  | .compileFinish _ false => { compileFailures := 1 }
  | .comparison .. => { comparisons := 1 }
  | .term _ => { terms := 1 }
  | .skipped .. => { skipped := 1 }
  | .compileFinish _ true | .pathCache _ | .targetCache _ => 0

def ofEvents (es : List Event) : Tally := (es.map ofEvent).sum

theorem ofEvents_nil : ofEvents [] = 0 := rfl

theorem ofEvents_cons (e : Event) (es : List Event) :
    ofEvents (e :: es) = ofEvent e + ofEvents es := List.sum_cons

theorem ofEvents_append (es es' : List Event) :
    ofEvents (es ++ es') = ofEvents es + ofEvents es' := by
  rw [ofEvents, List.map_append, List.sum_append, ofEvents, ofEvents]

theorem ofEvents_flatMap {α : Type} (f : α → List Event) (l : List α) :
    ofEvents (l.flatMap f) = (l.map fun a => ofEvents (f a)).sum := by
  induction l with
  | nil => rfl
  | cons a l ih => rw [List.flatMap_cons, ofEvents_append, ih, List.map_cons, List.sum_cons]

theorem ofEvent_of_counted?_eq_none {e : Event} (h : e.counted? = none) : ofEvent e = 0 := by
  cases e with
  | compileFinish schema ok =>
    cases ok with
    | true => rfl
    | false => cases h
  | pathCache | targetCache => rfl
  | _ => cases h

end Tally

/-! ## Tallies of schemas -/

theorem sum_changeEntry {α : Type} [AddCommMonoid α] (name : String) (a : α)
    (entries : List (String × α)) :
    ((changeEntry name 0 (· + a) entries).map Prod.snd).sum = (entries.map Prod.snd).sum + a := by
  induction entries with
  | nil => simp [changeEntry]
  | cons entry rest ih =>
    obtain ⟨n, b⟩ := entry
    unfold changeEntry
    split
    · simp only [List.map_cons, List.sum_cons]
      abel
    · split
      · simp only [List.map_cons, List.sum_cons]
        abel
      · simp only [List.map_cons, List.sum_cons, ih]
        abel

/-- Counts the event for its schema. -/
def shareOut (shares : List (String × Tally)) (e : Event) : List (String × Tally) :=
  match e.counted? with
  | some schema => changeEntry schema 0 (· + .ofEvent e) shares
  | none => shares

theorem sum_shareOut (shares : List (String × Tally)) (e : Event) :
    ((shareOut shares e).map Prod.snd).sum = (shares.map Prod.snd).sum + .ofEvent e := by
  unfold shareOut
  cases h : e.counted? with
  | some schema => exact sum_changeEntry schema _ shares
  | none => rw [Tally.ofEvent_of_counted?_eq_none h, add_zero]

theorem sum_foldl_shareOut (shares : List (String × Tally)) (es : List Event) :
    ((es.foldl shareOut shares).map Prod.snd).sum =
      (shares.map Prod.snd).sum + .ofEvents es := by
  induction es generalizing shares with
  | nil => exact (add_zero _).symm
  | cons e es ih => rw [List.foldl_cons, ih, sum_shareOut, add_assoc, Tally.ofEvents_cons]

end RecordFilter
