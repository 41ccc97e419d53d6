import RecordFilter.Calendar.Duration
import RecordFilter.Proofs.Calendar.Amount

/-!
# Durations that are read back

A duration is written with its sign in front of the letter `P` and the magnitude of its seconds
behind it. The magnitude is read as an integer of 64 bits by itself, so the text is read as the same
duration unless the whole seconds are the least integer of 64 bits, whose magnitude is no such
integer.
-/

namespace RecordFilter.Calendar.Duration

open RecordFilter.Text RecordFilter.Number

variable (d : Duration)

/-- The whole seconds of the least durations. -/
def leastSeconds : Int := (IntegerRange.signed 64).least

/-! ## Seconds and the rest -/

theorem natAbs_nanos :
    d.seconds.natAbs * nanosPerSecond + d.subsecond.natAbs = d.nanos.natAbs := by
  rw [seconds, subsecond, Int.natAbs_tdiv, Int.natAbs_tmod, Int.natAbs_natCast]
  exact Nat.div_add_mod' d.nanos.natAbs nanosPerSecond

theorem natAbs_tmod_lt (nanos : Int) : (nanos.tmod nanosPerSecond).natAbs < nanosPerSecond := by
  rw [Int.natAbs_tmod, Int.natAbs_natCast]
  exact Nat.mod_lt _ (by decide)

theorem natAbs_subsecond_lt : d.subsecond.natAbs < nanosPerSecond := natAbs_tmod_lt d.nanos

theorem oneSign (nanos : Int) :
    0 ≤ nanos.tdiv nanosPerSecond ∧ 0 ≤ nanos.tmod nanosPerSecond ∨
      nanos.tdiv nanosPerSecond ≤ 0 ∧ nanos.tmod nanosPerSecond ≤ 0 := by
  rcases Int.le_total 0 nanos with h | h
  · exact .inl ⟨Int.tdiv_nonneg h (Int.natCast_nonneg _), Int.tmod_nonneg _ h⟩
  · have hseconds := Int.tdiv_nonneg (Int.neg_nonneg.mpr h) (Int.natCast_nonneg nanosPerSecond)
    have hrest := Int.tmod_nonneg nanosPerSecond (Int.neg_nonneg.mpr h)
    rw [Int.neg_tdiv, Int.neg_nonneg] at hseconds
    rw [Int.neg_tmod, Int.neg_nonneg] at hrest
    exact .inr ⟨hseconds, hrest⟩

theorem holds_natAbs_seconds :
    (IntegerRange.signed 64).Holds d.seconds.natAbs ↔ d.seconds ≠ leastSeconds := by
  have hholds : (IntegerRange.signed 64).Holds d.seconds := d.seconds_holds
  have hleast : (IntegerRange.signed 64).least = -9223372036854775808 := rfl
  have hgreatest : (IntegerRange.signed 64).greatest = 9223372036854775807 := rfl
  simp only [IntegerRange.Holds, leastSeconds, hleast, hgreatest] at hholds ⊢
  omega

theorem of?_nanos : of? d.nanos = some d := dif_pos d.seconds_holds

theorem neg_natAbs_nanos : (if d.nanos < 0 then -(d.nanos.natAbs : Int) else d.nanos.natAbs) =
    d.nanos := by
  split <;> omega

/-! ## The number of the seconds -/

/-- The part behind the whole seconds, with its point. -/
def places : List Char := if d.subsecond = 0 then [] else '.' :: padded 9 d.subsecond.natAbs

/-- The magnitude of the seconds as it is written. -/
def magnitude : List Char := decimal d.seconds.natAbs ++ d.places

theorem readPlaces_places : readPlaces (d.places.drop 1) = .ok d.subsecond.natAbs := by
  unfold places
  split
  · rename_i hzero
    rw [hzero]
    rfl
  · have hlength : (padded 9 d.subsecond.natAbs).length = 9 :=
      length_padded (by decide) d.natAbs_subsecond_lt
    rw [List.drop_one, List.tail_cons, readPlaces, if_neg (by omega), digitsFrom_padded, hlength]
    exact congrArg Except.ok (Nat.mul_one _)

theorem isAlpha_of_mem_places {c : Char} (h : c ∈ d.places) : c.isAlpha = false := by
  unfold places at h
  split at h
  · cases h
  · rcases List.mem_cons.mp h with rfl | h
    · rfl
    · exact isAlpha_of_isDigit (isDigit_of_mem_padded h)

theorem isAlpha_of_mem_magnitude {c : Char} (h : c ∈ d.magnitude) : c.isAlpha = false := by
  rcases List.mem_append.mp h with h | h
  · exact isAlpha_of_isDigit (isDigit_of_mem_decimal h)
  · exact d.isAlpha_of_mem_places h

theorem ne_point_of_isDigit {c : Char} (h : isDigit c = true) : (c == '.' || c == ',') = false := by
  have hdigit := toNat_of_isDigit h
  simp only [Bool.or_eq_false_iff, beq_eq_false_iff_ne]
  constructor <;> rintro rfl <;> revert hdigit <;> decide

theorem ne_point_of_mem_decimal {n : Nat} : ∀ c ∈ decimal n, (c == '.' || c == ',') = false :=
  fun _ hc => ne_point_of_isDigit (isDigit_of_mem_decimal hc)

theorem readSeconds_append {whole behind : List Char}
    (hwhole : ∀ c ∈ whole, (c == '.' || c == ',') = false)
    (hbehind : ∀ c ∈ behind.head?, (c == '.' || c == ',') = true) :
    readSeconds (whole ++ behind) = (wholeNumber 64 whole).bind fun n =>
      (readPlaces (behind.drop 1)).map fun part : Nat =>
        if whole.head? = some '-' then -(n.natAbs * nanosPerSecond + part : Int)
        else n.natAbs * nanosPerSecond + part := by
  have hpoint : ∀ c ∈ whole, (!(c == '.' || c == ',')) = true := by simpa using hwhole
  have hhead : behind.takeWhile (fun c => !(c == '.' || c == ',')) = [] ∧
      behind.dropWhile (fun c => !(c == '.' || c == ',')) = behind := by
    cases behind with
    | nil => exact ⟨rfl, rfl⟩
    | cons c rest =>
      have hc : ¬ (!(c == '.' || c == ',')) = true := by rw [hbehind c rfl]; decide
      exact ⟨List.takeWhile_cons_of_neg hc, List.dropWhile_cons_of_neg hc⟩
  have htake : (whole ++ behind).takeWhile (fun c => !(c == '.' || c == ',')) = whole := by
    rw [List.takeWhile_append_of_pos hpoint, hhead.1, List.append_nil]
  have hdrop : (whole ++ behind).dropWhile (fun c => !(c == '.' || c == ',')) = behind := by
    rw [List.dropWhile_append_of_pos hpoint, hhead.2]
  unfold readSeconds
  simp only [htake, hdrop]
  cases wholeNumber 64 whole with
  | error e => rfl
  | ok n => cases readPlaces (behind.drop 1) <;> rfl

theorem isPoint_of_head?_places : ∀ c ∈ d.places.head?, (c == '.' || c == ',') = true := by
  unfold places
  split
  · exact nofun
  · rintro _ ⟨⟩
    rfl

theorem readSeconds_of_whole {whole : List Char} {n : Int}
    (hwhole : ∀ c ∈ whole, (c == '.' || c == ',') = false) (hread : wholeNumber 64 whole = .ok n)
    (hn : n.natAbs = d.seconds.natAbs) :
    readSeconds (whole ++ d.places) =
      .ok (if whole.head? = some '-' then -(d.nanos.natAbs : Int) else d.nanos.natAbs) := by
  rw [readSeconds_append hwhole d.isPoint_of_head?_places, hread, d.readPlaces_places,
    ← d.natAbs_nanos, ← hn]
  rfl

/-! ## The whole text -/

theorem text_eq :
    d.text = (if d.nanos < 0 then ['-'] else []) ++ 'P' :: 'T' :: (d.magnitude ++ ['S']) := by
  simp only [text, magnitude, places, List.append_assoc, List.cons_append, List.nil_append]

theorem read_secondsOnly (negative : Bool) {number : List Char} (hnil : number ≠ [])
    (hletters : ∀ c ∈ number, c.isAlpha = false) :
    read ((if negative then ['-'] else []) ++ 'P' :: 'T' :: (number ++ ['S'])) =
      (readSeconds number).bind fun n =>
        match of? (if negative then -n else n) with
        | some d => .ok d
        | none => .error .durationOverflow := by
  have hsplit : splitDesignator ((if negative then ['-'] else []) ++
      'P' :: 'T' :: (number ++ ['S'])) = .ok (negative, 'T' :: (number ++ ['S'])) := by
    cases negative <;> rfl
  have hdays : components ['D'] (('T' :: (number ++ ['S'])).takeWhile (!isTimeMark ·)) = .ok [] :=
    rfl
  have htime : readTimeSection ('T' :: (number ++ ['S'])) = .ok (some [⟨number, 'S'⟩]) := by
    have hcomponents : components ['H', 'M', 'S'] (number ++ ['S']) = .ok [⟨number, 'S'⟩] :=
      readComponents_component 2 hletters hnil rfl rfl (by omega) []
    change (components ['H', 'M', 'S'] (number ++ ['S']) >>= _) = _
    rw [hcomponents]
    rfl
  have htotal : totalNanos [⟨number, 'S'⟩] = readSeconds number := by
    have hcomponent : componentNanos ⟨number, 'S'⟩ = readSeconds number := rfl
    rw [totalNanos, List.foldlM_cons, hcomponent]
    cases readSeconds number with
    | error e => rfl
    | ok n => exact congrArg Except.ok (Int.zero_add n)
  have hnone : totalNanos [] = .ok 0 := rfl
  unfold read
  simp only [hsplit, hdays, htime, hnone, htotal, Option.getD_some, bind, Except.bind]
  cases readSeconds number with
  | error e => rfl
  | ok n =>
    refine (if_neg fun h => Bool.false_ne_true h.2).trans ?_
    rewrite [Int.zero_add]
    rfl

theorem magnitude_ne_nil : d.magnitude ≠ [] :=
  fun h => decimal_ne_nil _ (List.append_eq_nil_iff.mp h).1

theorem head?_decimal_ne (n : Nat) : (decimal n).head? ≠ some '-' := by
  intro h
  have hminus := isDigit_of_mem_decimal (List.mem_of_mem_head? h)
  revert hminus
  decide

theorem readSeconds_magnitude (h : (IntegerRange.signed 64).Holds d.seconds.natAbs) :
    readSeconds d.magnitude = .ok (d.nanos.natAbs : Int) := by
  have hwhole : wholeNumber 64 (decimal d.seconds.natAbs) = .ok (d.seconds.natAbs : Int) :=
    wholeNumber_of_read (IntegerRange.read_of_digitsFrom (IntegerRange.holds_signed_zero 64) h
      (decimal_ne_nil _) (digitsFrom_decimal _))
  rw [magnitude, d.readSeconds_of_whole ne_point_of_mem_decimal hwhole (Int.natAbs_natCast _),
    if_neg (head?_decimal_ne _)]

theorem read_text :
    read d.text = (readSeconds d.magnitude).bind fun n =>
      match of? (if d.nanos < 0 then -n else n) with
      | some d => .ok d
      | none => .error .durationOverflow := by
  have hread := read_secondsOnly (decide (d.nanos < 0)) d.magnitude_ne_nil
    fun c => d.isAlpha_of_mem_magnitude
  simp only [decide_eq_true_eq] at hread
  rw [text_eq, hread]

theorem read_text_of_ne (h : d.seconds ≠ leastSeconds) : read d.text = .ok d := by
  rw [read_text, d.readSeconds_magnitude (d.holds_natAbs_seconds.mpr h)]
  simp only [Except.bind, neg_natAbs_nanos, of?_nanos]

theorem read_text_of_eq (h : d.seconds = leastSeconds) :
    read d.text = .error (.badNumber (decimal d.seconds.natAbs)) := by
  have hwhole : wholeNumber 64 (decimal d.seconds.natAbs) =
      .error (.badNumber (decimal d.seconds.natAbs)) :=
    wholeNumber_eq_error (digitsFrom_decimal _) (mt d.holds_natAbs_seconds.mp (absurd h))
  rw [read_text, magnitude, readSeconds_append ne_point_of_mem_decimal d.isPoint_of_head?_places,
    hwhole]
  rfl

/-! ## The sign in front of the number -/

theorem seconds_of_neg (h : d.nanos < 0) : -(d.seconds.natAbs : Int) = d.seconds := by
  have hnonneg : 0 ≤ (-d.nanos).tdiv nanosPerSecond := Int.tdiv_nonneg (by omega) (by decide)
  rw [Int.neg_tdiv] at hnonneg
  unfold seconds
  omega

theorem seconds_of_nonneg (h : 0 ≤ d.nanos) : (d.seconds.natAbs : Int) = d.seconds := by
  have hnonneg : 0 ≤ d.nanos.tdiv nanosPerSecond := Int.tdiv_nonneg h (by decide)
  unfold seconds
  omega

theorem readSeconds_signed :
    readSeconds ((if d.nanos < 0 then ['-'] else []) ++ d.magnitude) = .ok d.nanos := by
  have hholds : (IntegerRange.signed 64).Holds d.seconds := d.seconds_holds
  split
  · rename_i hneg
    have hwhole : wholeNumber 64 ('-' :: decimal d.seconds.natAbs) =
        .ok (-(d.seconds.natAbs : Int)) :=
      wholeNumber_of_read (IntegerRange.read_minus_of_digitsFrom (IntegerRange.holds_signed_zero 64)
        (by decide) (by rwa [d.seconds_of_neg hneg]) (decimal_ne_nil _) (digitsFrom_decimal _))
    have hpoint : ∀ c ∈ '-' :: decimal d.seconds.natAbs, (c == '.' || c == ',') = false :=
      List.forall_mem_cons.mpr ⟨rfl, ne_point_of_mem_decimal⟩
    refine (d.readSeconds_of_whole hpoint hwhole ?_).trans (congrArg Except.ok ?_)
    · rw [Int.natAbs_neg, Int.natAbs_natCast]
    · rw [List.head?_cons, if_pos rfl]
      omega
  · rename_i hnonneg
    rw [List.nil_append, d.readSeconds_magnitude (by rwa [d.seconds_of_nonneg (by omega)])]
    refine congrArg Except.ok ?_
    omega

theorem exists_read : ∃ s, read s = .ok d := by
  have hletters : ∀ c ∈ (if d.nanos < 0 then ['-'] else []) ++ d.magnitude, c.isAlpha = false := by
    intro c hc
    rcases List.mem_append.mp hc with hc | hc
    · split at hc
      · rw [List.mem_singleton.mp hc]
        rfl
      · cases hc
    · exact d.isAlpha_of_mem_magnitude hc
  have hread := read_secondsOnly false (List.append_ne_nil_of_right_ne_nil _ d.magnitude_ne_nil)
    hletters
  rw [readSeconds_signed] at hread
  simp only [Except.bind, Bool.false_eq_true, if_false, of?_nanos] at hread
  exact ⟨_, hread⟩

/-- Every duration can be read, and its text is read as the same duration just where the whole
seconds are not the least integer of 64 bits. -/
theorem restored_iff (d : Duration) :
    (∃ s, read s = .ok d) ∧
      (read d.text = .ok d ↔ d.seconds ≠ leastSeconds) ∧
      (read d.text = .error (.badNumber (decimal d.seconds.natAbs)) ↔
        d.seconds = leastSeconds) := by
  refine ⟨d.exists_read, ⟨fun h hleast => ?_, d.read_text_of_ne⟩, fun h => ?_, d.read_text_of_eq⟩
  · rw [d.read_text_of_eq hleast] at h
    cases h
  · by_contra hleast
    rw [d.read_text_of_ne hleast] at h
    cases h

theorem leastSeconds_refused :
    ∃ d, read "PT-9223372036854775808S".toList = .ok d ∧
      d.text = "-PT9223372036854775808S".toList ∧
      read d.text = .error (.badNumber "9223372036854775808".toList) :=
  ⟨⟨-9223372036854775808000000000, by decide⟩, by decide, by decide, by decide⟩

end RecordFilter.Calendar.Duration
