import RecordFilter.Number.Integer
import RecordFilter.Proofs.Text.Digits
import RecordFilter.Proofs.Yields

/-!
# Integers that are read back

An integer of a range is read from its digits, and only integers of the range are read.
-/

namespace RecordFilter.Number

open RecordFilter.Text

theorem ne_of_digitsFrom {value n : Nat} {c mark : Char} {rest : List Char}
    (h : digitsFrom value (c :: rest) = some n) (hmark : digit? mark = none) : c ≠ mark := by
  rintro rfl
  rw [digitsFrom, hmark] at h
  cases h

/-! ## Bounded integers -/

namespace IntegerRange

variable {r : IntegerRange}

theorem holds_signed_zero (bits : Nat) : (signed bits).Holds 0 := by
  have hpow : 0 < Int.pow 2 (bits - 1) := Int.pow_pos (by decide)
  exact ⟨Int.neg_nonpos_of_nonneg (Int.le_of_lt hpow), Int.le_sub_one_of_lt hpow⟩

/-- The number that digits behind a sign write. -/
def withSign (negative : Bool) (n : Nat) : Int := if negative then -(n : Int) else n

theorem append_withSign (negative : Bool) (value d : Nat) :
    append negative (withSign negative value) d = withSign negative (value * 10 + d) := by
  cases negative with
  | false => simp [append, withSign]
  | true =>
    simp only [append, withSign, if_true]
    omega

theorem Holds.withSign_of_le {negative : Bool} {m n : Nat} (h0 : r.Holds 0)
    (hn : r.Holds (withSign negative n)) (hle : m ≤ n) : r.Holds (withSign negative m) := by
  unfold Holds at *
  cases negative <;> simp only [withSign, Bool.false_eq_true, if_true, if_false] at * <;> omega

theorem readDigits_of_digitsFrom (negative : Bool) {value n : Nat} {s : List Char}
    (h0 : r.Holds 0) (hn : r.Holds (withSign negative n)) (hs : digitsFrom value s = some n) :
    r.readDigits negative (withSign negative value) s = .ok (withSign negative n) := by
  induction s generalizing value with
  | nil =>
    cases hs
    rfl
  | cons c rest ih =>
    obtain ⟨d, hd, hrest⟩ := Option.bind_eq_some_iff.mp hs
    -- What is read so far lies between zero and the number, so it is in the range.
    have hnext : r.Holds (withSign negative (value * 10 + d)) :=
      h0.withSign_of_le hn (le_of_digitsFrom hrest)
    simp only [readDigits, hd, append_withSign]
    rw [if_neg (Int.not_lt.mpr hnext.1), if_neg (Int.not_lt.mpr hnext.2)]
    exact ih hrest

theorem digitsFrom_of_readDigits {negative : Bool} {value : Nat} {n : Int} {s : List Char}
    (h : r.readDigits negative (withSign negative value) s = .ok n) :
    ∃ m, digitsFrom value s = some m ∧ n = withSign negative m := by
  induction s generalizing value with
  | nil => exact ⟨value, rfl, (Except.ok.inj h).symm⟩
  | cons c rest ih =>
    rw [readDigits] at h
    rw [digitsFrom]
    cases hc : digit? c with
    | none => rw [hc] at h; cases h
    | some d =>
      simp only [hc, append_withSign] at h
      split at h
      · cases h
      · split at h
        · cases h
        · exact ih h

theorem read_digits {n : Nat} {s : List Char} (hnil : s ≠ []) (hs : digitsFrom 0 s = some n) :
    r.read s = r.readDigits false 0 s := by
  obtain ⟨c, rest, rfl⟩ := List.exists_cons_of_ne_nil hnil
  have hplus : c ≠ '+' := ne_of_digitsFrom hs rfl
  have hminus : c ≠ '-' := ne_of_digitsFrom hs rfl
  rw [read]
  all_goals simp_all

theorem read_of_digitsFrom {n : Nat} {s : List Char} (h0 : r.Holds 0) (hn : r.Holds n)
    (hnil : s ≠ []) (hs : digitsFrom 0 s = some n) : r.read s = .ok (n : Int) := by
  rw [read_digits hnil hs]
  exact readDigits_of_digitsFrom false h0 hn hs

theorem holds_of_digitsFrom {n : Nat} {m : Int} {s : List Char} (h0 : r.Holds 0)
    (hs : digitsFrom 0 s = some n) (h : r.read s = .ok m) : r.Holds n := by
  have hnil : s ≠ [] := by
    rintro rfl
    cases h
  rw [read_digits hnil hs] at h
  obtain ⟨k, hk, rfl⟩ := @digitsFrom_of_readDigits r false 0 m s h
  obtain rfl := Option.some.inj (hs.symm.trans hk)
  exact holds_of_readDigits h0 h

theorem read_minus_of_digitsFrom {n : Nat} {s : List Char} (h0 : r.Holds 0)
    (hleast : r.least < 0) (hn : r.Holds (-n)) (hnil : s ≠ []) (hs : digitsFrom 0 s = some n) :
    r.read ('-' :: s) = .ok (-(n : Int)) := by
  rw [read]
  · rw [if_pos hleast]
    exact readDigits_of_digitsFrom true h0 hn hs
  · exact hnil

theorem read_of_natAbs {n : Int} {s : List Char} (h0 : r.Holds 0) (hn : r.Holds n)
    (hnil : s ≠ []) (hs : digitsFrom 0 s = some n.natAbs) :
    r.read (if n < 0 then '-' :: s else s) = .ok n := by
  split
  · have habs : -(n.natAbs : Int) = n := by omega
    have hleast : r.least < 0 := Int.lt_of_le_of_lt hn.1 (by assumption)
    have hholds : r.Holds (-(n.natAbs : Int)) := by rwa [habs]
    rw [read_minus_of_digitsFrom h0 hleast hholds hnil hs, habs]
  · have habs : (n.natAbs : Int) = n := by omega
    have hholds : r.Holds (n.natAbs : Int) := by rwa [habs]
    rw [read_of_digitsFrom h0 hholds hnil hs, habs]

theorem read_signedDecimal {n : Int} (h0 : r.Holds 0) (hn : r.Holds n) :
    r.read (signedDecimal n) = .ok n :=
  read_of_natAbs h0 hn (decimal_ne_nil _) (digitsFrom_decimal _)

theorem digits_readDigits (negative : Bool) (value : Int) (s : List Char) :
    Yields (r.readDigits negative value s) fun _ => ∀ c ∈ s, isDigit c = true := by
  induction s generalizing value with
  | nil => exact yields_ok nofun
  | cons c rest ih =>
    unfold readDigits
    split
    · exact yields_error _
    · rename_i d hd
      have hc : isDigit c = true := by rw [isDigit, hd]; rfl
      dsimp only
      split
      · exact yields_error _
      · split
        · exact yields_error _
        · exact (ih _).mono fun _ hrest => List.forall_mem_cons.mpr ⟨hc, hrest⟩

theorem digits_read (s : List Char) :
    Yields (r.read s) fun _ => ∀ c ∈ s, isDigit c = true ∨ c = '+' ∨ c = '-' := by
  have hdigits : ∀ negative rest, Yields (r.readDigits negative 0 rest)
      fun _ => ∀ c ∈ rest, isDigit c = true ∨ c = '+' ∨ c = '-' :=
    fun negative rest => (digits_readDigits negative 0 rest).mono fun _ h c hc => .inl (h c hc)
  unfold read
  split
  · exact yields_error _
  · exact yields_error _
  · exact yields_error _
  · exact (hdigits _ _).mono fun _ h => List.forall_mem_cons.mpr ⟨.inr (.inl rfl), h⟩
  · split
    · exact (hdigits _ _).mono fun _ h => List.forall_mem_cons.mpr ⟨.inr (.inr rfl), h⟩
    · exact yields_error _
  · exact hdigits _ _

theorem holds_read (h0 : r.Holds 0) (s : List Char) : Yields (r.read s) r.Holds := by
  unfold read
  split
  · exact yields_error _
  · exact yields_error _
  · exact yields_error _
  · exact fun n hn => holds_of_readDigits h0 hn
  · split
    · exact fun n hn => holds_of_readDigits h0 hn
    · exact yields_error _
  · exact fun n hn => holds_of_readDigits h0 hn

end IntegerRange

/-! ## Integers of any size -/

theorem readBigDigits_of_digitsFrom {value n : Nat} {s : List Char}
    (hs : digitsFrom value s = some n) : readBigDigits value s = .ok n := by
  induction s generalizing value with
  | nil =>
    cases hs
    rfl
  | cons c rest ih =>
    have hmark : c ≠ '_' := ne_of_digitsFrom hs rfl
    obtain ⟨d, hd, hrest⟩ := Option.bind_eq_some_iff.mp hs
    rw [readBigDigits]
    · simp only [hd]
      exact ih hrest
    · exact hmark

theorem readBigNatural_of_digitsFrom {n : Nat} {s : List Char} (hnil : s ≠ [])
    (hs : digitsFrom 0 s = some n) : readBigNatural s = .ok n := by
  obtain ⟨c, rest, rfl⟩ := List.exists_cons_of_ne_nil hnil
  have hplus : c ≠ '+' := ne_of_digitsFrom hs rfl
  have hmark : c ≠ '_' := ne_of_digitsFrom hs rfl
  have hbody := readBigDigits_of_digitsFrom hs
  unfold readBigNatural
  split
  · rename_i heq
    cases heq
    exact absurd rfl hplus
  · rename_i heq
    cases heq
    exact absurd rfl hplus
  · dsimp only
    split
    · rename_i heq
      cases heq
    · rename_i heq
      cases heq
      exact absurd rfl hmark
    · exact hbody

theorem readBig_signedDecimal (n : Int) : readBig (signedDecimal n) = .ok n := by
  have hdigits := digitsFrom_decimal n.natAbs
  have hread := readBigNatural_of_digitsFrom (decimal_ne_nil _) hdigits
  obtain ⟨c, rest, hdecimal⟩ := List.exists_cons_of_ne_nil (decimal_ne_nil n.natAbs)
  rw [hdecimal] at hdigits hread
  have hplus : c ≠ '+' := ne_of_digitsFrom hdigits rfl
  have hminus : c ≠ '-' := ne_of_digitsFrom hdigits rfl
  unfold signedDecimal
  rw [hdecimal]
  split
  · have habs : -(n.natAbs : Int) = n := by omega
    rw [readBig, hread]
    · exact congrArg Except.ok habs
    · rintro tail heq
      cases heq
      exact hplus rfl
  · have habs : (n.natAbs : Int) = n := by omega
    rw [readBig, hread]
    · exact congrArg Except.ok habs
    · rintro tail heq
      cases heq
      exact hminus rfl
    · rintro tail heq
      cases heq
      exact hminus rfl

end RecordFilter.Number
