import RecordFilter.Calendar.Amount
import RecordFilter.Proofs.Number.Integer

/-!
# Components that are read

Numbers that are each followed by the letter of their unit are read one by one.
-/

namespace RecordFilter.Calendar

open RecordFilter.Text RecordFilter.Number

theorem isAlpha_of_isDigit {c : Char} (h : isDigit c = true) : c.isAlpha = false := by
  have h57 := (toNat_of_isDigit h).2
  have hupper : c.isUpper = false := by
    refine Bool.eq_false_iff.mpr fun h => ?_
    have h65 : 65 ≤ c.toNat := UInt32.le_iff_toNat_le.mp (of_decide_eq_true h).1
    omega
  have hlower : c.isLower = false := by
    refine Bool.eq_false_iff.mpr fun h => ?_
    have h97 : 97 ≤ c.toNat :=
      UInt32.le_iff_toNat_le.mp (of_decide_eq_true (Bool.and_eq_true_iff.mp h).1)
    omega
  exact Bool.or_eq_false_iff.mpr ⟨hupper, hlower⟩

theorem isAlpha_of_mem_signedDecimal {n : Int} {c : Char} (h : c ∈ signedDecimal n) :
    c.isAlpha = false := by
  unfold signedDecimal at h
  split at h
  · rcases List.mem_cons.mp h with rfl | h
    · rfl
    · exact isAlpha_of_isDigit (isDigit_of_mem_decimal h)
  · exact isAlpha_of_isDigit (isDigit_of_mem_decimal h)

theorem signedDecimal_ne_nil (n : Int) : signedDecimal n ≠ [] := by
  unfold signedDecimal
  split
  · exact List.cons_ne_nil _ _
  · exact decimal_ne_nil _

theorem readComponents_append {units : List Char} {used : Nat} {number s : List Char}
    (hs : ∀ c ∈ s, c.isAlpha = false) (rest : List Char) :
    readComponents units used number (s ++ rest) =
      readComponents units used (number ++ s) rest := by
  induction s generalizing number with
  | nil => rw [List.nil_append, List.append_nil]
  | cons c s ih =>
    obtain ⟨hc, hs⟩ := List.forall_mem_cons.mp hs
    rw [List.cons_append, readComponents, if_neg (by simp [hc]), ih hs, List.append_assoc]
    rfl

theorem readComponents_component {units : List Char} {used : Nat} {s : List Char} {c : Char}
    (rank : Nat) (hs : ∀ c ∈ s, c.isAlpha = false) (hnil : s ≠ []) (hc : c.isAlpha = true)
    (hrank : units.idxOf? c.toUpper = some rank) (hused : used ≤ rank) (rest : List Char) :
    readComponents units used [] (s ++ c :: rest) =
      (readComponents units (rank + 1) [] rest).map (⟨s, c.toUpper⟩ :: ·) := by
  rw [readComponents_append hs, List.nil_append, readComponents, if_pos hc, hrank]
  dsimp only
  rw [if_neg (Nat.not_lt.mpr hused), if_neg (by simpa using hnil)]

/-! ## Whole numbers -/

theorem wholeNumber_of_read {bits : Nat} {n : Int} {s : List Char}
    (h : (IntegerRange.signed bits).read s = .ok n) : wholeNumber bits s = .ok n := by
  rw [wholeNumber, h]

theorem wholeNumber_eq_error {bits n : Nat} {s : List Char} (hs : digitsFrom 0 s = some n)
    (hn : ¬ (IntegerRange.signed bits).Holds n) : wholeNumber bits s = .error (.badNumber s) := by
  rw [wholeNumber]
  cases hread : (IntegerRange.signed bits).read s with
  | error _ => rfl
  | ok m => exact absurd (IntegerRange.holds_of_digitsFrom
      (IntegerRange.holds_signed_zero bits) hs hread) hn

end RecordFilter.Calendar
