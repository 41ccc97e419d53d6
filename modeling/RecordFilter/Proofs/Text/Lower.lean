import RecordFilter.Text.Ascii
import RecordFilter.Text.Lower

/-!
# Small letters of a text inside another one

Every character has its small letters by itself except the capital sigma, which looks at what is
around it. A piece of a text is therefore the same in small letters on its own and in the text just
where each of its capital sigmas ends a word in both or in neither. A text of ASCII has no sigmas.
-/

namespace RecordFilter.Text

variable {before after before' after' s : List Char}

def smallSigma (endsWord : Bool) : Char := if endsWord then 'ς' else 'σ'

/-- The small letters of one character between what comes before it, reversed, and after it. -/
def lowerBetween (before after : List Char) (c : Char) : List Char :=
  if c = 'Σ' then [smallSigma (endsWord before after)] else lowerChar c

/-- The text in small letters where `before`, reversed, and `after` stand around it. -/
def lowerWithin (before after : List Char) : List Char → List Char
  | [] => []
  | c :: rest => lowerBetween before (rest ++ after) c ++ lowerWithin (c :: before) after rest

theorem lowerFrom_cons (before : List Char) (c : Char) (rest : List Char) :
    lowerFrom before (c :: rest) = lowerBetween before rest c ++ lowerFrom (c :: before) rest := by
  have hsigma : c.toNat = 0x3A3 ↔ c = 'Σ' := Char.toNat_inj (d := 'Σ')
  rw [lowerFrom, lowerBetween, smallSigma]
  simp only [beq_iff_eq, hsigma]

theorem lowerFrom_append (before s t : List Char) :
    lowerFrom before (s ++ t) = lowerWithin before t s ++ lowerFrom (s.reverse ++ before) t := by
  induction s generalizing before with
  | nil => rfl
  | cons c rest ih =>
    rw [List.cons_append, lowerFrom_cons, ih, lowerWithin, List.reverse_cons, List.append_assoc,
      List.append_assoc]
    rfl

theorem lower_eq_lowerWithin (s : List Char) : lower s = lowerWithin [] [] s := by
  have happend := lowerFrom_append [] s []
  rwa [List.append_nil, lowerFrom, List.append_nil] at happend

theorem lower_around (before s after : List Char) :
    lower (before ++ (s ++ after)) = lowerWithin [] (s ++ after) before ++
      (lowerWithin before.reverse after s ++ lowerFrom (s.reverse ++ before.reverse) after) := by
  rw [lower, lowerFrom_append, lowerFrom_append, List.append_nil]

/-! ## ASCII -/

theorem forall_ascii {P : Char → Prop} (h : ∀ n < 0x80, P (.ofNat n)) {c : Char}
    (hc : c.toNat < 0x80) : P c := by
  have hcode := h c.toNat hc
  rwa [Char.ofNat_toNat] at hcode

theorem lowerBetween_of_ascii {c : Char} (h : c.toNat < 0x80) :
    lowerBetween before after c = [c.toLower] := by
  obtain ⟨hsigma, hlower⟩ : c ≠ 'Σ' ∧ lowerChar c = [c.toLower] :=
    @forall_ascii (fun c => c ≠ 'Σ' ∧ lowerChar c = [c.toLower]) (by decide +kernel) c h
  rw [lowerBetween, if_neg hsigma, hlower]

theorem lowerWithin_of_ascii (h : ∀ c ∈ s, c.toNat < 0x80) :
    lowerWithin before after s = asciiLower s := by
  induction s generalizing before with
  | nil => rfl
  | cons c s ih =>
    obtain ⟨hc, hs⟩ := List.forall_mem_cons.mp h
    rw [lowerWithin, lowerBetween_of_ascii hc, ih hs]
    rfl

theorem lower_of_ascii (h : ∀ c ∈ s, c.toNat < 0x80) : lower s = asciiLower s := by
  rw [lower_eq_lowerWithin, lowerWithin_of_ascii h]

theorem toLower_toLower {c : Char} (h : c.toNat < 0x80) : c.toLower.toLower = c.toLower :=
  @forall_ascii (fun c => c.toLower.toLower = c.toLower) (by decide +kernel) c h

theorem asciiLower_lower (h : ∀ c ∈ s, c.toNat < 0x80) : asciiLower (lower s) = lower s := by
  rw [lower_of_ascii h, asciiLower, asciiLower, List.map_map]
  exact List.map_congr_left fun c hc => toLower_toLower (h c hc)

/-! ## Where the small letters are the same -/

/-- Each capital sigma of the text gets the same small letter in both surroundings. -/
def SameSigmas (before after before' after' s : List Char) : Prop :=
  ∀ front rest, s = front ++ 'Σ' :: rest →
    endsWord (front.reverse ++ before) (rest ++ after) =
      endsWord (front.reverse ++ before') (rest ++ after')

theorem forall_sigma_cons {P : List Char → List Char → Prop} {c : Char} {rest : List Char} :
    (∀ front back, c :: rest = front ++ 'Σ' :: back → P front back) ↔
      (c = 'Σ' → P [] rest) ∧ ∀ front back, rest = front ++ 'Σ' :: back → P (c :: front) back := by
  constructor
  · exact fun h => ⟨fun hc => h [] rest (hc ▸ rfl),
      fun front back hrest => h (c :: front) back (hrest ▸ rfl)⟩
  · rintro ⟨hfirst, hlater⟩ front back hsplit
    cases front with
    | nil =>
      obtain ⟨hc, rfl⟩ := List.cons.inj hsplit
      exact hfirst hc
    | cons d front =>
      obtain ⟨rfl, hrest⟩ := List.cons.inj hsplit
      exact hlater front back hrest

theorem sameSigmas_cons {c : Char} {rest : List Char} :
    SameSigmas before after before' after' (c :: rest) ↔
      (c = 'Σ' → endsWord before (rest ++ after) = endsWord before' (rest ++ after')) ∧
        SameSigmas (c :: before) after (c :: before') after' rest := by
  unfold SameSigmas
  rw [forall_sigma_cons]
  simp only [List.reverse_nil, List.nil_append, List.reverse_cons, List.append_assoc,
    List.singleton_append]

theorem length_lowerBetween (c : Char) :
    (lowerBetween before after c).length = (lowerBetween before' after' c).length := by
  unfold lowerBetween
  split <;> rfl

theorem lowerBetween_eq_iff {c : Char} :
    lowerBetween before after c = lowerBetween before' after' c ↔
      (c = 'Σ' → endsWord before after = endsWord before' after') := by
  unfold lowerBetween smallSigma
  split
  · cases endsWord before after <;> cases endsWord before' after' <;> simp [*]
  · simp [*]

theorem length_lowerWithin (s : List Char) :
    (lowerWithin before after s).length = (lowerWithin before' after' s).length := by
  induction s generalizing before before' with
  | nil => rfl
  | cons c rest ih =>
    have hc : (lowerBetween before (rest ++ after) c).length =
        (lowerBetween before' (rest ++ after') c).length := length_lowerBetween c
    have hrest := @ih (c :: before) (c :: before')
    simp only [lowerWithin, List.length_append]
    omega

theorem lowerWithin_eq_iff :
    lowerWithin before after s = lowerWithin before' after' s ↔
      SameSigmas before after before' after' s := by
  induction s generalizing before before' with
  | nil => exact iff_of_true rfl (by simp [SameSigmas])
  | cons c rest ih =>
    rw [sameSigmas_cons, ← ih, ← lowerBetween_eq_iff, lowerWithin, lowerWithin]
    constructor
    · exact fun h => List.append_inj h (length_lowerBetween c)
    · rintro ⟨hfirst, hrest⟩
      rw [hfirst, hrest]

/-! ## Sigmas that keep their form -/

/-- Each capital sigma of the text gets the same small letter as in the text alone. -/
def KeepsSigmas (before after s : List Char) : Prop := SameSigmas before after [] [] s

theorem keepsSigmas_iff : KeepsSigmas before after s ↔ lowerWithin before after s = lower s := by
  rw [lower_eq_lowerWithin, lowerWithin_eq_iff, KeepsSigmas]

theorem keepsSigmas_of_no_sigma (h : 'Σ' ∉ s) : KeepsSigmas before after s := by
  rintro front rest rfl
  simp at h

theorem meetsCased_append (s t : List Char) :
    meetsCased (s ++ t) = if s.all isCaseIgnorable then meetsCased t else meetsCased s := by
  unfold meetsCased
  induction s with
  | nil => rfl
  | cons c rest ih =>
    by_cases hc : isCaseIgnorable c = true
    · simpa [hc] using ih
    · simp [hc]

theorem meetsCased_of_all (h : s.all isCaseIgnorable = true) : meetsCased s = false := by
  have happend := meetsCased_append s []
  rwa [List.append_nil, if_pos h] at happend

theorem meetsCased_append_of_meetsCased (h : meetsCased s = true) (t : List Char) :
    meetsCased (s ++ t) = true := by
  rw [meetsCased_append]
  split
  · rw [meetsCased_of_all (by assumption)] at h
    cases h
  · exact h

theorem endsWord_of_append {rest : List Char} (h : endsWord before (rest ++ after) = true) :
    endsWord before rest = true := by
  simp only [endsWord, Bool.and_eq_true, Bool.not_eq_true'] at h ⊢
  refine ⟨h.1, Bool.eq_false_iff.mpr fun hrest => ?_⟩
  rw [meetsCased_append_of_meetsCased hrest] at h
  cases h.2

theorem endsWord_append_of {front : List Char} (h : endsWord front after = true) :
    endsWord (front ++ before) after = true := by
  simp only [endsWord, Bool.and_eq_true] at h ⊢
  exact ⟨meetsCased_append_of_meetsCased h.1 before, h.2⟩

theorem KeepsSigmas.behind (h : KeepsSigmas before after s) : KeepsSigmas [] after s := by
  intro front rest heq
  have hsame := h front rest heq
  unfold endsWord at hsame ⊢
  rw [List.append_nil, List.append_nil] at hsame ⊢
  cases hfront : meetsCased front.reverse with
  | false => rfl
  | true =>
    have hall : front.reverse.all isCaseIgnorable = false := by
      refine Bool.eq_false_iff.mpr fun hall => ?_
      rw [meetsCased_of_all hall] at hfront
      cases hfront
    simpa [meetsCased_append, hall, hfront] using hsame

/-- A letter behind the text and a letter in front of it are the only surroundings to try. -/
theorem keepsSigmas_of_letters {a : Char} (ha : meetsCased [a] = true)
    (hbehind : KeepsSigmas [] [a] s) (hinFront : KeepsSigmas [a] [] s) :
    KeepsSigmas before after s := by
  intro front rest heq
  have hone := hbehind front rest heq
  have htwo := hinFront front rest heq
  simp only [List.append_nil, endsWord, meetsCased_append, ha] at hone htwo ⊢
  -- A side of the sigma where nothing is decided leaves it to what stands around the text.
  have hfront := @meetsCased_of_all front.reverse
  have hrest := @meetsCased_of_all rest
  generalize front.reverse.all isCaseIgnorable = frontOpen at *
  generalize rest.all isCaseIgnorable = restOpen at *
  generalize meetsCased front.reverse = frontCased at *
  generalize meetsCased rest = restCased at *
  cases frontOpen <;> cases restOpen <;> simp_all

/-! ## Counting the forms -/

/-- If sigmas with one form in the first surroundings have it in the second ones too, the text has
no more of this form in the first, and as many only where both are the same. -/
theorem count_lowerWithin_le {form : Bool}
    (h : ∀ front rest, s = front ++ 'Σ' :: rest →
      endsWord (front.reverse ++ before) (rest ++ after) = form →
        endsWord (front.reverse ++ before') (rest ++ after') = form) :
    (lowerWithin before after s).count (smallSigma form) ≤
        (lowerWithin before' after' s).count (smallSigma form) ∧
      ((lowerWithin before after s).count (smallSigma form) =
          (lowerWithin before' after' s).count (smallSigma form) →
        lowerWithin before after s = lowerWithin before' after' s) := by
  induction s generalizing before before' with
  | nil => exact ⟨Nat.le_refl _, fun _ => rfl⟩
  | cons c rest ih =>
    rw [forall_sigma_cons] at h
    simp only [List.reverse_nil, List.nil_append, List.reverse_cons, List.append_assoc,
      List.singleton_append] at h
    obtain ⟨hle, heq⟩ := ih h.2
    have hfirst : (lowerBetween before (rest ++ after) c).count (smallSigma form) ≤
          (lowerBetween before' (rest ++ after') c).count (smallSigma form) ∧
        ((lowerBetween before (rest ++ after) c).count (smallSigma form) =
            (lowerBetween before' (rest ++ after') c).count (smallSigma form) →
          lowerBetween before (rest ++ after) c = lowerBetween before' (rest ++ after') c) := by
      unfold lowerBetween
      split
      · have hc := h.1 (by assumption)
        revert hc
        cases endsWord before (rest ++ after) <;> cases endsWord before' (rest ++ after') <;>
          cases form <;> decide
      · exact ⟨Nat.le_refl _, fun _ => rfl⟩
    simp only [lowerWithin, List.count_append]
    refine ⟨Nat.add_le_add hfirst.1 hle, fun hcount => ?_⟩
    rw [hfirst.2 (by omega), heq (by omega)]

theorem keepsSigmas_of_infix {form : Bool} {front back : List Char}
    (h : ∀ front rest, s = front ++ 'Σ' :: rest →
      endsWord (front.reverse ++ before) (rest ++ after) = form →
        endsWord front.reverse rest = form)
    (hfront : front.count (smallSigma form) = 0) (hback : back.count (smallSigma form) = 0)
    (hwithin : lower s <:+: front ++ (lowerWithin before after s ++ back)) :
    KeepsSigmas before after s := by
  have hle := hwithin.sublist.count_le (smallSigma form)
  rw [List.count_append, List.count_append, hfront, hback, lower_eq_lowerWithin] at hle
  obtain ⟨hge, heq⟩ := @count_lowerWithin_le before after [] [] s form (by simpa using h)
  rw [KeepsSigmas, ← lowerWithin_eq_iff]
  exact heq (by omega)

end RecordFilter.Text
