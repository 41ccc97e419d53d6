import RecordFilter.Text.Digit

/-!
# Digits that are read back

The digits that are written for a number are read as that number, with zeros in front of them or
not.
-/

namespace RecordFilter.Text

theorem isDigit_iff {c : Char} : isDigit c = true ↔ c.isDigit = true := by
  simp [isDigit, digit?, Char.isDigit, Char.le_def]

theorem toNat_of_isDigit {c : Char} (h : isDigit c = true) : 48 ≤ c.toNat ∧ c.toNat ≤ 57 := by
  have hdigit := isDigit_iff.mp h
  simp only [Char.isDigit, Bool.and_eq_true, decide_eq_true_eq, ge_iff_le,
    UInt32.le_iff_toNat_le] at hdigit
  exact hdigit

theorem digit?_digitChar {d : Nat} (h : d < 10) : digit? (Nat.digitChar d) = some d := by
  match d, h with
  | 0, _ | 1, _ | 2, _ | 3, _ | 4, _ | 5, _ | 6, _ | 7, _ | 8, _ | 9, _ => rfl

/-! ## Reading on -/

theorem digitsFrom_append (value : Nat) (a b : List Char) :
    digitsFrom value (a ++ b) = (digitsFrom value a).bind (digitsFrom · b) := by
  induction a generalizing value with
  | nil => rfl
  | cons c rest ih =>
    rw [List.cons_append, digitsFrom, digitsFrom]
    cases digit? c with
    | none => rfl
    | some d => exact ih _

theorem le_of_digitsFrom {value n : Nat} {s : List Char} (h : digitsFrom value s = some n) :
    value ≤ n := by
  induction s generalizing value with
  | nil => exact Nat.le_of_eq (Option.some.inj h)
  | cons c rest ih =>
    obtain ⟨d, -, hrest⟩ := Option.bind_eq_some_iff.mp h
    have := ih hrest
    omega

theorem isDigit_of_digitsFrom {value n : Nat} {s : List Char} (h : digitsFrom value s = some n) :
    ∀ c ∈ s, isDigit c = true := by
  induction s generalizing value with
  | nil => exact nofun
  | cons c rest ih =>
    obtain ⟨d, hd, hrest⟩ := Option.bind_eq_some_iff.mp h
    refine List.forall_mem_cons.mpr ⟨?_, ih hrest⟩
    rw [isDigit, hd]
    rfl

theorem exists_digitsFrom {s : List Char} (h : ∀ c ∈ s, isDigit c = true) (value : Nat) :
    ∃ n, digitsFrom value s = some n := by
  induction s generalizing value with
  | nil => exact ⟨value, rfl⟩
  | cons c rest ih =>
    obtain ⟨hc, hrest⟩ := List.forall_mem_cons.mp h
    obtain ⟨d, hd⟩ := Option.isSome_iff_exists.mp hc
    obtain ⟨n, hn⟩ := ih hrest (value * 10 + d)
    exact ⟨n, by rw [digitsFrom, hd, Option.bind_some, hn]⟩

theorem lt_of_digit? {c : Char} {d : Nat} (h : digit? c = some d) : d < 10 := by
  have hdigit : isDigit c = true := by rw [isDigit, h, Option.isSome_some]
  have hle := (toNat_of_isDigit hdigit).2
  unfold digit? at h
  split at h
  · have hzero : '0'.toNat = 48 := rfl
    have hd := Option.some.inj h
    omega
  · cases h

theorem lt_of_digitsFrom {value n : Nat} {s : List Char} (h : digitsFrom value s = some n) :
    n < (value + 1) * Nat.pow 10 s.length := by
  induction s generalizing value with
  | nil =>
    cases h
    exact Nat.lt_of_lt_of_le (Nat.lt_succ_self _) (Nat.le_of_eq (Nat.mul_one _).symm)
  | cons c rest ih =>
    obtain ⟨d, hd, hrest⟩ := Option.bind_eq_some_iff.mp h
    have hten := lt_of_digit? hd
    calc n < (value * 10 + d + 1) * Nat.pow 10 rest.length := ih hrest
      _ ≤ (value + 1) * 10 * Nat.pow 10 rest.length := Nat.mul_le_mul_right _ (by omega)
      _ = (value + 1) * Nat.pow 10 (c :: rest).length := by
        rw [Nat.mul_assoc, Nat.mul_comm 10]
        rfl

theorem digitsFrom_replicate (value count : Nat) :
    digitsFrom value (List.replicate count '0') = some (value * Nat.pow 10 count) := by
  induction count generalizing value with
  | zero => exact congrArg some (Nat.mul_one value).symm
  | succ count ih =>
    have hten : value * 10 * Nat.pow 10 count = value * Nat.pow 10 (count + 1) := by
      rw [Nat.mul_assoc, Nat.mul_comm 10]
      rfl
    exact (ih (value * 10)).trans (congrArg some hten)

theorem digitsFrom_zeros (count : Nat) (s : List Char) :
    digitsFrom 0 (List.replicate count '0' ++ s) = digitsFrom 0 s := by
  induction count with
  | zero => rfl
  | succ count ih => exact ih

/-! ## What is written -/

theorem decimal_ne_nil (n : Nat) : decimal n ≠ [] := Nat.toDigits_ne_nil

theorem isDigit_of_mem_decimal {n : Nat} {c : Char} (h : c ∈ decimal n) : isDigit c = true :=
  isDigit_iff.mpr (Nat.isDigit_of_mem_toDigits (by decide) (by decide) h)

theorem length_decimal_le {width n : Nat} (hwidth : 0 < width) (hn : n < Nat.pow 10 width) :
    (decimal n).length ≤ width :=
  (Nat.length_toDigits_le_iff (by decide) hwidth).mpr hn

theorem digitsFrom_decimal (n : Nat) : digitsFrom 0 (decimal n) = some n := by
  induction n using Nat.strongRecOn with
  | _ n ih =>
    unfold decimal at ih ⊢
    by_cases hn : n < 10
    · rw [Nat.toDigits_of_lt_base hn, digitsFrom, digit?_digitChar hn]
      simp [digitsFrom]
    · rw [Nat.toDigits_of_base_le (by decide) (by omega), digitsFrom_append, ih _ (by omega)]
      rw [Option.bind_some, digitsFrom, digit?_digitChar (by omega)]
      simp only [Option.bind_some, digitsFrom, Option.some.injEq]
      omega

theorem padded_eq (width n : Nat) :
    padded width n = List.replicate (width - (decimal n).length) '0' ++ decimal n := rfl

theorem padded_ne_nil (width n : Nat) : padded width n ≠ [] :=
  fun h => decimal_ne_nil n (List.append_eq_nil_iff.mp h).2

theorem isDigit_of_mem_padded {width n : Nat} {c : Char} (h : c ∈ padded width n) :
    isDigit c = true := by
  rw [padded_eq] at h
  rcases List.mem_append.mp h with h | h
  · rw [List.eq_of_mem_replicate h]
    rfl
  · exact isDigit_of_mem_decimal h

theorem digitsFrom_padded (width n : Nat) : digitsFrom 0 (padded width n) = some n := by
  rw [padded_eq, digitsFrom_zeros, digitsFrom_decimal]

theorem length_padded {width n : Nat} (hwidth : 0 < width) (hn : n < Nat.pow 10 width) :
    (padded width n).length = width := by
  have := length_decimal_le hwidth hn
  rw [padded_eq, List.length_append, List.length_replicate]
  omega

end RecordFilter.Text
