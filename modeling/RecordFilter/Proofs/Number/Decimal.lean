import RecordFilter.Number.Decimal
import RecordFilter.Proofs.Text.Digits

/-!
# Decimals that are read back

The text of a decimal is read without rounding, as a decimal with the same places. It is the same
number; only the minus sign of a zero gets lost.
-/

namespace RecordFilter.Number.Decimal

open RecordFilter.Text

/-! ## Runs of digits -/

theorem isNumeral_digits {point seen : Bool} {s rest : List Char}
    (hs : ∀ c ∈ s, isDigit c = true) (hnil : s ≠ []) :
    isNumeral point seen (s ++ rest) = isNumeral point true rest := by
  induction s generalizing seen with
  | nil => exact absurd rfl hnil
  | cons c s ih =>
    obtain ⟨hc, hs⟩ := List.forall_mem_cons.mp hs
    rw [List.cons_append, isNumeral, if_pos hc]
    cases s with
    | nil => rfl
    | cons d s => exact ih hs (List.cons_ne_nil d s)

theorem readDigits_whole {value n : Nat} {s rest : List Char} (hn : n < Nat.pow 2 96)
    (hs : digitsFrom value s = some n) :
    readDigits false value 0 (s ++ rest) = readDigits false n 0 rest := by
  induction s generalizing value with
  | nil =>
    cases hs
    rfl
  | cons c s ih =>
    obtain ⟨d, hd, hrest⟩ := Option.bind_eq_some_iff.mp hs
    have hle : value * 10 + d ≤ n := le_of_digitsFrom hrest
    rw [List.cons_append, readDigits]
    simp only [hd]
    rw [if_neg (Nat.not_le.mpr (Nat.lt_of_le_of_lt hle hn)), if_neg (by decide)]
    exact ih hrest

theorem readDigits_places {value n scale : Nat} {s : List Char} (hn : n < Nat.pow 2 96)
    (hs : digitsFrom value s = some n) (hscale : scale + s.length ≤ mostPlaces) :
    readDigits true value scale s = some (n, scale + s.length) := by
  induction s generalizing value scale with
  | nil =>
    cases hs
    rfl
  | cons c s ih =>
    obtain ⟨d, hd, hrest⟩ := Option.bind_eq_some_iff.mp hs
    have hle : value * 10 + d ≤ n := le_of_digitsFrom hrest
    rw [List.length_cons] at hscale
    rw [readDigits]
    simp only [hd, if_true]
    rw [if_neg (Nat.not_le.mpr (Nat.lt_of_le_of_lt hle hn))]
    split
    · -- The last place is taken, and nothing is behind it that could round it.
      have hnil : s = [] := List.eq_nil_of_length_eq_zero (by omega)
      subst hnil
      cases hrest
      simp [roundBy, digitBehind]
    · rw [ih hrest (by omega), List.length_cons]
      exact congrArg some (Prod.ext rfl (by omega))

/-! ## The text of a decimal -/

theorem text_eq (x : Decimal) : ∃ whole places : List Char,
    x.text = (if x.negative then ['-'] else []) ++ whole ++
      (if x.scale = 0 then [] else '.' :: places) ∧
    whole ≠ [] ∧ places.length = x.scale ∧
    whole ++ places = padded (x.scale + 1) x.coefficient := by
  have hlength : x.scale + 1 ≤ (padded (x.scale + 1) x.coefficient).length := by
    rw [padded_eq, List.length_append, List.length_replicate]
    omega
  refine ⟨_, _, rfl, ?_, ?_, List.take_append_drop _ _⟩
  · rw [← List.length_pos_iff, List.length_take]
    omega
  · rw [List.length_drop]
    omega

theorem readUnsigned_text (x : Decimal) {whole places : List Char} (hnil : whole ≠ [])
    (hplaces : places.length = x.scale)
    (hdigits : whole ++ places = padded (x.scale + 1) x.coefficient) (negative : Bool) :
    readUnsigned negative (whole ++ if x.scale = 0 then [] else '.' :: places) =
      of? (negative && x.coefficient != 0) x.coefficient x.scale := by
  have hall : ∀ c ∈ whole ++ places, isDigit c = true := by
    rw [hdigits]
    exact fun c hc => isDigit_of_mem_padded hc
  obtain ⟨hwhole, hbehind⟩ := List.forall_mem_append.mp hall
  have hvalue : digitsFrom 0 (whole ++ places) = some x.coefficient := by
    rw [hdigits, digitsFrom_padded]
  rw [digitsFrom_append] at hvalue
  obtain ⟨w, hw, hrest⟩ := Option.bind_eq_some_iff.mp hvalue
  have hlt : w < Nat.pow 2 96 := Nat.lt_of_le_of_lt (le_of_digitsFrom hrest) x.coefficient_lt
  by_cases hscale : x.scale = 0
  · obtain rfl : places = [] := List.eq_nil_of_length_eq_zero (hplaces.trans hscale)
    cases hrest
    rw [if_pos hscale, readUnsigned, isNumeral_digits hwhole hnil,
      readDigits_whole x.coefficient_lt hw, hscale]
    rfl
  · have hnumeral : isNumeral false false (whole ++ '.' :: places) = true := by
      have hpoint : places ≠ [] := fun h => hscale (by rw [← hplaces, h]; rfl)
      rw [isNumeral_digits hwhole hnil]
      have hend : isNumeral true true (places ++ []) = true := isNumeral_digits hbehind hpoint
      rwa [List.append_nil] at hend
    have hread : readDigits false 0 0 (whole ++ '.' :: places) =
        some (x.coefficient, x.scale) := by
      have hle : 0 + places.length ≤ mostPlaces := by
        rw [Nat.zero_add, hplaces]
        exact x.scale_le
      have hend := readDigits_places x.coefficient_lt hrest hle
      rw [Nat.zero_add, hplaces] at hend
      rw [readDigits_whole hlt hw]
      exact hend
    rw [if_neg hscale, readUnsigned, if_pos hnumeral, hread]
    rfl

theorem readPositional_text (x : Decimal) :
    readPositional x.text = of? (x.negative && x.coefficient != 0) x.coefficient x.scale := by
  obtain ⟨whole, places, htext, hnil, hplaces, hdigits⟩ := text_eq x
  have hread := readUnsigned_text x hnil hplaces hdigits
  rw [htext]
  cases x.negative with
  | true => exact hread true
  | false =>
    rw [← hread false]
    obtain ⟨c, rest, rfl⟩ := List.exists_cons_of_ne_nil hnil
    have hmem : c ∈ padded (x.scale + 1) x.coefficient := by
      rw [← hdigits]
      exact List.mem_cons_self
    have hc : isDigit c = true := isDigit_of_mem_padded hmem
    simp only [Bool.false_eq_true, if_false, List.nil_append, List.cons_append]
    rw [readPositional]
    · rintro s heq
      cases heq
      cases hc
    · rintro s heq
      cases heq
      cases hc

theorem read_text (x : Decimal) : ∃ y, read x.text = some y ∧ y.compare x = .eq := by
  have hof : of? (x.negative && x.coefficient != 0) x.coefficient x.scale =
      some ⟨x.negative && x.coefficient != 0, x.coefficient, x.scale, x.coefficient_lt,
        x.scale_le⟩ :=
    dif_pos ⟨x.coefficient_lt, x.scale_le⟩
  refine ⟨_, by rw [read, readPositional_text, hof]; rfl, ?_⟩
  have hsigned : signed ⟨x.negative && x.coefficient != 0, x.coefficient, x.scale,
      x.coefficient_lt, x.scale_le⟩ = x.signed := by
    unfold signed
    by_cases h : x.coefficient = 0 <;> simp [h]
  rw [compare, hsigned]
  exact Std.ReflCmp.compare_self

end RecordFilter.Number.Decimal
