import RecordFilter.Proofs.Calendar.AmountGrammar
import RecordFilter.Proofs.Calendar.Duration

/-!
# What a text says of a duration

The written form of durations and the nanoseconds that a text of this form stands for. A text is
read just where it has the form and its whole seconds are an integer of 64 bits.
-/

namespace RecordFilter.Calendar.Duration

open RecordFilter.Text RecordFilter.Number
open RecordFilter.Number.IntegerRange (withSign)

/-! ## The written form -/

/-- Seconds, counted in nanoseconds: a whole number of 64 bits, and behind a point or a comma up to
nine digits. The sign of the whole number is that of the digits as well, also before a zero. -/
inductive IsSeconds : List Char → Int → Prop
  | whole {negative : Bool} {sign digits : List Char} {n : Nat} (hsign : IsSign negative sign)
      (hdigits : natural? digits = some n)
      (hholds : (IntegerRange.signed 64).Holds (withSign negative n)) :
      IsSeconds (sign ++ digits) (withSign negative (n * nanosPerSecond))
  | parted {negative : Bool} {sign digits places : List Char} {point : Char} {n part : Nat}
      (hsign : IsSign negative sign) (hdigits : natural? digits = some n)
      (hholds : (IntegerRange.signed 64).Holds (withSign negative n))
      (hpoint : point = '.' ∨ point = ',') (hlength : places.length ≤ 9)
      (hplaces : digitsFrom 0 places = some part) :
      IsSeconds (sign ++ digits ++ point :: places)
        (withSign negative (n * nanosPerSecond + part * Nat.pow 10 (9 - places.length)))

/-- The numbers of days, hours and minutes are whole. -/
def IsNumber (unit : Char) : List Char → Int → Prop :=
  if unit = 'S' then IsSeconds else IsWhole 64

/-- The letter `T` and at least one of hours, minutes and seconds, or nothing. -/
inductive IsTimeSection : List Char → List (Option Int) → Prop
  | absent : IsTimeSection [] [none, none, none]
  | present {mark : Char} {parts : List Char} {values : List (Option Int)}
      (hmark : mark = 'T' ∨ mark = 't') (hparts : Parts IsNumber ['H', 'M', 'S'] parts values)
      (hsome : parts ≠ []) : IsTimeSection (mark :: parts) values

/-- The text spells a duration of so many nanoseconds, which need not fit. -/
inductive Spells : List Char → Int → Prop
  | mk {negative : Bool} {s date time : List Char} {days hours minutes seconds : Option Int}
      (hdesignated : IsDesignated negative (date ++ time) s)
      (hdate : Parts IsNumber ['D'] date [days])
      (htime : IsTimeSection time [hours, minutes, seconds]) (hsome : date ++ time ≠ []) :
      Spells s ((if negative then -1 else 1) *
        ((days.getD 0 * 86400 + hours.getD 0 * 3600 + minutes.getD 0 * 60) * nanosPerSecond +
          seconds.getD 0))

/-! ## Seconds -/

theorem readPlaces_eq_ok_iff {places : List Char} {part : Nat} :
    readPlaces places = .ok part ↔ places.length ≤ 9 ∧
      ∃ n, digitsFrom 0 places = some n ∧ n * Nat.pow 10 (9 - places.length) = part := by
  unfold readPlaces
  split
  · rename_i hlength
    exact ⟨nofun, fun h => absurd h.1 (Nat.not_le.mpr hlength)⟩
  · rename_i hlength
    cases hn : digitsFrom 0 places with
    | none => exact ⟨nofun, fun ⟨_, n, hsome, _⟩ => nomatch hsome⟩
    | some n => simp [Nat.not_lt.mp hlength]

theorem natAbs_withSign (negative : Bool) (n : Nat) : (withSign negative n).natAbs = n := by
  cases negative with
  | false => exact Int.natAbs_natCast n
  | true => exact (Int.natAbs_neg _).trans (Int.natAbs_natCast n)

theorem head?_eq_minus_iff {negative : Bool} {sign digits : List Char} {n : Nat}
    (hsign : IsSign negative sign) (hdigits : natural? digits = some n) :
    (sign ++ digits).head? = some '-' ↔ negative = true := by
  cases hsign with
  | none =>
    obtain ⟨-, hdigits⟩ := natural?_eq_some_iff.mp hdigits
    refine iff_of_false (fun hhead => ?_) Bool.false_ne_true
    have hminus := isDigit_of_digitsFrom hdigits _ (List.mem_of_mem_head? hhead)
    revert hminus
    decide
  | plus => exact iff_of_false (fun h => nomatch h) Bool.false_ne_true
  | minus => exact iff_of_true rfl rfl

theorem ne_point_of_sign {negative : Bool} {sign digits : List Char} {n : Nat}
    (hsign : IsSign negative sign) (hdigits : natural? digits = some n) :
    ∀ c ∈ sign ++ digits, (c == '.' || c == ',') = false := by
  obtain ⟨-, hdigits⟩ := natural?_eq_some_iff.mp hdigits
  refine List.forall_mem_append.mpr
    ⟨?_, fun c hc => ne_point_of_isDigit (isDigit_of_digitsFrom hdigits c hc)⟩
  cases hsign with
  | none => exact nofun
  | plus | minus => exact List.forall_mem_singleton.mpr rfl

theorem withSign_eq (negative : Bool) (n : Nat) :
    withSign negative n = if negative = true then -(n : Int) else n := rfl

theorem readSeconds_of_sign {negative : Bool} {sign digits behind : List Char} {n part : Nat}
    (hsign : IsSign negative sign) (hdigits : natural? digits = some n)
    (hholds : (IntegerRange.signed 64).Holds (withSign negative n))
    (hbehind : ∀ c ∈ behind.head?, (c == '.' || c == ',') = true)
    (hpart : readPlaces (behind.drop 1) = .ok part) :
    readSeconds (sign ++ digits ++ behind) =
      .ok (withSign negative (n * nanosPerSecond + part)) := by
  have hwhole := wholeNumber_eq_ok_iff.mpr (IsWhole.mk hsign hdigits hholds)
  rw [readSeconds_append (ne_point_of_sign hsign hdigits) hbehind, hwhole, hpart]
  simp only [Except.bind, Except.map, head?_eq_minus_iff hsign hdigits, natAbs_withSign]
  rw [withSign_eq, Int.natCast_add, Int.natCast_mul]

theorem isSeconds_of_append {negative : Bool} {sign digits behind : List Char} {n part : Nat}
    (hsign : IsSign negative sign) (hdigits : natural? digits = some n)
    (hholds : (IntegerRange.signed 64).Holds (withSign negative n))
    (hbehind : ∀ c ∈ behind.head?, (c == '.' || c == ',') = true)
    (hpart : readPlaces (behind.drop 1) = .ok part) :
    IsSeconds (sign ++ digits ++ behind) (withSign negative (n * nanosPerSecond + part)) := by
  obtain ⟨hlength, k, hk, hpart⟩ := readPlaces_eq_ok_iff.mp hpart
  cases behind with
  | nil =>
    have hzero : part = 0 := by
      cases hk
      exact hpart.symm.trans (Nat.zero_mul _)
    rw [hzero, Nat.add_zero, List.append_nil]
    exact .whole hsign hdigits hholds
  | cons point places =>
    have hpoint : point = '.' ∨ point = ',' := by simpa using hbehind point rfl
    have hparted := IsSeconds.parted hsign hdigits hholds hpoint hlength hk
    rwa [hpart] at hparted

theorem isSeconds_of_readSeconds {s : List Char} {n : Int} (h : readSeconds s = .ok n) :
    IsSeconds s n := by
  have hsplit := List.takeWhile_append_dropWhile (p := fun c => !(c == '.' || c == ',')) (l := s)
  have hhead := List.head?_dropWhile_not (fun c => !(c == '.' || c == ',')) s
  obtain ⟨seconds, hwhole, hrest⟩ := bind_eq_ok_iff.mp h
  obtain ⟨part, hpart, -⟩ := bind_eq_ok_iff.mp hrest
  clear hrest
  -- The reader cuts the text at its first point or comma.
  generalize s.takeWhile (fun c => !(c == '.' || c == ',')) = whole at hsplit hwhole
  generalize s.dropWhile (fun c => !(c == '.' || c == ',')) = behind at hsplit hhead hpart
  subst hsplit
  have hbehind : ∀ c ∈ behind.head?, (c == '.' || c == ',') = true := by
    intro c hc
    rw [hc] at hhead
    exact by simpa only [Bool.not_eq_false'] using hhead
  obtain ⟨hsign, hdigits, hholds⟩ := wholeNumber_eq_ok_iff.mp hwhole
  rw [readSeconds_of_sign hsign hdigits hholds hbehind hpart] at h
  rw [← Except.ok.inj h]
  exact isSeconds_of_append hsign hdigits hholds hbehind hpart

theorem readSeconds_of_isSeconds {s : List Char} {n : Int} (h : IsSeconds s n) :
    readSeconds s = .ok n := by
  cases h with
  | @whole negative sign digits n hsign hdigits hholds =>
    have hnone : ∀ c ∈ ([] : List Char).head?, (c == '.' || c == ',') = true := nofun
    have hzero : readPlaces (([] : List Char).drop 1) = .ok 0 := rfl
    have hread := readSeconds_of_sign hsign hdigits hholds hnone hzero
    rwa [List.append_nil, Nat.add_zero] at hread
  | @parted negative sign digits places point n part hsign hdigits hholds hpoint hlength hplaces =>
    have hhead : ∀ c ∈ (point :: places).head?, (c == '.' || c == ',') = true := by
      rintro _ ⟨⟩
      simpa using hpoint
    generalize hnanos : part * Nat.pow 10 (9 - places.length) = nanos
    have hpart : readPlaces ((point :: places).drop 1) = .ok nanos :=
      readPlaces_eq_ok_iff.mpr ⟨hlength, part, hplaces, hnanos⟩
    exact readSeconds_of_sign hsign hdigits hholds hhead hpart

theorem readSeconds_eq_ok_iff {s : List Char} {n : Int} :
    readSeconds s = .ok n ↔ IsSeconds s n :=
  ⟨isSeconds_of_readSeconds, readSeconds_of_isSeconds⟩

/-! ## Components and their total -/

theorem IsSeconds.isLetterless {s : List Char} {n : Int} (h : IsSeconds s n) :
    IsLetterless s := by
  cases h with
  | whole hsign hdigits hholds => exact (IsWhole.mk hsign hdigits hholds).isLetterless
  | parted hsign hdigits hholds hpoint _ hplaces =>
    obtain ⟨-, hwhole⟩ := (IsWhole.mk hsign hdigits hholds).isLetterless
    refine ⟨List.append_ne_nil_of_right_ne_nil _ (List.cons_ne_nil _ _),
      List.forall_mem_append.mpr ⟨hwhole, List.forall_mem_cons.mpr ⟨?_, fun c hc => ?_⟩⟩⟩
    · rcases hpoint with rfl | rfl <;> rfl
    · exact isAlpha_of_isDigit (isDigit_of_digitsFrom hplaces c hc)

theorem IsNumber.isLetterless {unit : Char} {s : List Char} {n : Int} (h : IsNumber unit s n) :
    IsLetterless s := by
  unfold IsNumber at h
  split at h
  · exact h.isLetterless
  · exact h.isLetterless

/-- How many nanoseconds one of the unit is. Seconds are counted in nanoseconds as they are read. -/
def unitNanos (unit : Char) : Int :=
  if unit = 'D' then 86400 * nanosPerSecond
  else if unit = 'H' then 3600 * nanosPerSecond
  else if unit = 'M' then 60 * nanosPerSecond
  else 1

/-- The total with so many of one more unit. -/
def put (total : Int) (unit : Char) (n : Int) : Int := total + n * unitNanos unit

theorem componentNanos_eq_ok_iff {unit : Char} {s : List Char} {nanos : Int}
    (hunit : unit ∈ ['D', 'H', 'M', 'S']) :
    componentNanos ⟨s, unit⟩ = .ok nanos ↔ ∃ n, IsNumber unit s n ∧ n * unitNanos unit = nanos := by
  have hwhole : ∀ perUnit : Int,
      (wholeNumber 64 s).map (· * perUnit * nanosPerSecond) = .ok nanos ↔
        ∃ n, IsWhole 64 s n ∧ n * (perUnit * nanosPerSecond) = nanos := by
    intro perUnit
    simp only [map_eq_ok_iff, wholeNumber_eq_ok_iff, Int.mul_assoc]
  simp only [List.mem_cons, List.not_mem_nil, or_false] at hunit
  rcases hunit with rfl | rfl | rfl | rfl
  · exact hwhole 86400
  · exact hwhole 3600
  · exact hwhole 60
  · change readSeconds s = .ok nanos ↔ ∃ n, IsSeconds s n ∧ n * 1 = nanos
    simp only [readSeconds_eq_ok_iff, Int.mul_one, exists_eq_right]

theorem readsNumbers {units : List Char} (hunits : ∀ unit ∈ units, unit ∈ ['D', 'H', 'M', 'S']) :
    ReadsNumbers units IsNumber (fun total c => (componentNanos c).map (total + ·)) put where
  isLetterless _ _ _ _ h := h.isLetterless
  step unit hunit total s total' := by
    simp only [map_eq_ok_iff, componentNanos_eq_ok_iff (hunits unit hunit)]
    constructor
    · rintro ⟨_, ⟨n, hn, rfl⟩, rfl⟩
      exact ⟨n, hn, rfl⟩
    · rintro ⟨n, hn, rfl⟩
      exact ⟨_, ⟨n, hn, rfl⟩, rfl⟩

theorem areUnits_date : AreUnits ['D'] := ⟨by decide, by decide⟩

theorem areUnits_time : AreUnits ['H', 'M', 'S'] := ⟨by decide, by decide⟩

theorem exists_dateNanos_iff {s : List Char} {nanos : Int} :
    (∃ cs, components ['D'] s = .ok cs ∧ totalNanos cs = .ok nanos) ↔
      ∃ days : Option Int, Parts IsNumber ['D'] s [days] ∧
        days.getD 0 * (86400 * nanosPerSecond) = nanos := by
  have hput : ∀ days : Option Int,
      putParts put 0 ['D'] [days] = days.getD 0 * (86400 * nanosPerSecond) := by
    intro days
    cases days with
    | none => exact (Int.zero_mul _).symm
    | some n => exact Int.zero_add _
  simp only [totalNanos]
  rw [exists_foldlM_components_iff areUnits_date (readsNumbers (by simp))]
  constructor
  · rintro ⟨ns, hns, rfl⟩
    obtain ⟨days, rfl⟩ := List.length_eq_one_iff.mp hns.length_eq
    exact ⟨days, hns, (hput days).symm⟩
  · rintro ⟨days, hns, rfl⟩
    exact ⟨_, hns, hput days⟩

theorem exists_timeNanos_iff {s : List Char} {nanos : Int} :
    (∃ cs, components ['H', 'M', 'S'] s = .ok cs ∧ totalNanos cs = .ok nanos) ↔
      ∃ hours minutes seconds : Option Int,
        Parts IsNumber ['H', 'M', 'S'] s [hours, minutes, seconds] ∧
          hours.getD 0 * (3600 * nanosPerSecond) + minutes.getD 0 * (60 * nanosPerSecond) +
            seconds.getD 0 = nanos := by
  have hput : ∀ hours minutes seconds : Option Int,
      putParts put 0 ['H', 'M', 'S'] [hours, minutes, seconds] =
        hours.getD 0 * (3600 * nanosPerSecond) + minutes.getD 0 * (60 * nanosPerSecond) +
          seconds.getD 0 := by
    intro hours minutes seconds
    cases hours <;> cases minutes <;> cases seconds <;>
      simp [putParts, put, unitNanos]
  simp only [totalNanos]
  rw [exists_foldlM_components_iff areUnits_time (readsNumbers (by simp))]
  constructor
  · rintro ⟨ns, hns, rfl⟩
    obtain ⟨hours, minutes, seconds, rfl⟩ := List.length_eq_three.mp hns.length_eq
    exact ⟨hours, minutes, seconds, hns, (hput hours minutes seconds).symm⟩
  · rintro ⟨hours, minutes, seconds, hns, rfl⟩
    exact ⟨_, hns, hput hours minutes seconds⟩

/-! ## The two sections -/

theorem isTimeMark_iff {c : Char} : isTimeMark c = true ↔ c = 'T' ∨ c = 't' := by
  simp only [isTimeMark, Bool.or_eq_true, beq_iff_eq]

theorem ne_timeMark_of_parts {s : List Char} {days : Option Int}
    (h : Parts IsNumber ['D'] s [days]) : ∀ c ∈ s, (!isTimeMark c) = true := by
  generalize hunits : ['D'] = units at h
  cases h with
  | absent h =>
    cases hunits
    cases h
    exact nofun
  | @present unit letter digits s n _ _ hnumber hletter h =>
    obtain ⟨rfl, rfl⟩ := List.cons.inj hunits
    cases h
    refine List.forall_mem_append.mpr ⟨fun c hc => ?_, List.forall_mem_singleton.mpr ?_⟩
    · have halpha := hnumber.isLetterless.isAlpha c hc
      rw [Bool.not_eq_true', Bool.eq_false_iff]
      intro hmark
      rcases isTimeMark_iff.mp hmark with rfl | rfl <;> cases halpha
    · rw [Bool.not_eq_true', Bool.eq_false_iff]
      intro hmark
      rcases isTimeMark_iff.mp hmark with rfl | rfl <;> revert hletter <;> decide

theorem sections_of_isTimeSection {date time : List Char} {days : Option Int}
    {values : List (Option Int)} (hdate : Parts IsNumber ['D'] date [days])
    (htime : IsTimeSection time values) :
    (date ++ time).takeWhile (!isTimeMark ·) = date ∧
      (date ++ time).dropWhile (!isTimeMark ·) = time := by
  have hfront := ne_timeMark_of_parts hdate
  rw [List.takeWhile_append_of_pos hfront, List.dropWhile_append_of_pos hfront]
  cases htime with
  | absent => exact ⟨List.append_nil date, rfl⟩
  | @present mark parts _ hmark _ _ =>
    have hstop : (!isTimeMark mark) = false := by rw [isTimeMark_iff.mpr hmark, Bool.not_true]
    simp only [List.takeWhile_cons, List.dropWhile_cons, hstop, Bool.false_eq_true, if_false,
      List.append_nil, and_self]

theorem isNone_of_readTimeSection {body : List Char} {cs : Option (List Component)}
    (h : readTimeSection body = .ok cs) :
    cs.isNone = true ↔ body.dropWhile (!isTimeMark ·) = [] := by
  unfold readTimeSection at h
  split at h
  · rename_i hnil
    cases h
    exact iff_of_true rfl hnil
  · rename_i hcons
    obtain ⟨_, -, h⟩ := bind_eq_ok_iff.mp h
    split at h <;> cases h
    exact iff_of_false Bool.false_ne_true fun hnil => nomatch hcons.symm.trans hnil

theorem exists_readTimeSection_iff {body : List Char} {nanos : Int} :
    (∃ cs, readTimeSection body = .ok cs ∧ totalNanos (cs.getD []) = .ok nanos) ↔
      ∃ hours minutes seconds : Option Int,
        IsTimeSection (body.dropWhile (!isTimeMark ·)) [hours, minutes, seconds] ∧
          hours.getD 0 * (3600 * nanosPerSecond) + minutes.getD 0 * (60 * nanosPerSecond) +
            seconds.getD 0 = nanos := by
  have hhead := List.head?_dropWhile_not (!isTimeMark ·) body
  unfold readTimeSection
  generalize body.dropWhile (!isTimeMark ·) = time at hhead ⊢
  cases time with
  | nil =>
    constructor
    · rintro ⟨_, ⟨⟩, ⟨⟩⟩
      exact ⟨none, none, none, .absent, rfl⟩
    · rintro ⟨_, _, _, ⟨⟩, rfl⟩
      exact ⟨none, rfl, rfl⟩
  | cons mark parts =>
    have hmark : mark = 'T' ∨ mark = 't' := isTimeMark_iff.mp (by simpa using hhead)
    constructor
    · rintro ⟨_, h, htotal⟩
      obtain ⟨cs, hcs, h⟩ := bind_eq_ok_iff.mp h
      split at h
      · cases h
      · rename_i hnil
        cases h
        obtain ⟨hours, minutes, seconds, hparts, rfl⟩ := exists_timeNanos_iff.mp ⟨cs, hcs, htotal⟩
        refine ⟨hours, minutes, seconds, .present hmark hparts fun hparts => hnil ?_, rfl⟩
        exact List.isEmpty_iff.mpr ((components_eq_nil_iff areUnits_time hcs).mpr hparts)
    · rintro ⟨hours, minutes, seconds, ⟨⟩ | ⟨-, hparts, hsome⟩, rfl⟩
      obtain ⟨cs, hcs, htotal⟩ := exists_timeNanos_iff.mpr ⟨_, _, _, hparts, rfl⟩
      refine ⟨some cs, bind_eq_ok_iff.mpr ⟨cs, hcs, if_neg fun hnil => hsome ?_⟩, htotal⟩
      exact (components_eq_nil_iff areUnits_time hcs).mp (List.isEmpty_iff.mp hnil)

/-! ## Reading what is spelled -/

/-- What comes of a number of nanoseconds. -/
def ofNanos (nanos : Int) : Except AmountFault Duration :=
  match of? nanos with
  | some d => .ok d
  | none => .error .durationOverflow

theorem ofNanos_eq_ok_iff {nanos : Int} {d : Duration} :
    ofNanos nanos = .ok d ↔ d.nanos = nanos := by
  unfold ofNanos of?
  constructor
  · split
    · rintro ⟨⟩
      rename_i h
      split at h <;> cases h
      rfl
    · exact nofun
  · rintro rfl
    rw [dif_pos d.seconds_holds]

theorem total_eq (days hours minutes seconds : Int) (negative : Bool) :
    (let total := days * (86400 * nanosPerSecond) +
        (hours * (3600 * nanosPerSecond) + minutes * (60 * nanosPerSecond) + seconds)
      if negative then -total else total) =
      (if negative then -1 else 1) *
        ((days * 86400 + hours * 3600 + minutes * 60) * nanosPerSecond + seconds) := by
  have hn : (nanosPerSecond : Int) = 1000000000 := rfl
  rw [hn]
  cases negative with
  | false =>
    simp only [Bool.false_eq_true, if_false]
    omega
  | true =>
    simp only [if_true]
    omega

theorem read_of_spells {s : List Char} {nanos : Int} (h : Spells s nanos) :
    read s = ofNanos nanos := by
  obtain ⟨hdesignated, hdate, htime, hsome⟩ := h
  obtain ⟨htake, hdrop⟩ := sections_of_isTimeSection hdate htime
  obtain ⟨days, hdays, hdayNanos⟩ := exists_dateNanos_iff.mpr ⟨_, hdate, rfl⟩
  obtain ⟨time, hread, htimeNanos⟩ := exists_readTimeSection_iff.mpr
    ⟨_, _, _, hdrop.symm ▸ htime, rfl⟩
  -- Something was read, because the text is not empty behind its designator.
  have hsection : ¬ (days.isEmpty ∧ time.isNone) := by
    rintro ⟨hnone, htimeNone⟩
    have hdateNil := (components_eq_nil_iff areUnits_date hdays).mp (List.isEmpty_iff.mp hnone)
    have htimeNil := hdrop.symm.trans ((isNone_of_readTimeSection hread).mp htimeNone)
    exact hsome (List.append_eq_nil_iff.mpr ⟨hdateNil, htimeNil⟩)
  simp only [read, splitDesignator_eq_ok_iff.mpr hdesignated, htake, hdays, hdayNanos, hread,
    htimeNanos, bind, Except.bind]
  rw [if_neg hsection]
  exact congrArg ofNanos (total_eq _ _ _ _ _)

theorem exists_spells_of_read {s : List Char} {d : Duration} (h : read s = .ok d) :
    ∃ nanos, Spells s nanos := by
  obtain ⟨⟨negative, body⟩, hsplit, h⟩ := bind_eq_ok_iff.mp h
  obtain ⟨cs, hcs, h⟩ := bind_eq_ok_iff.mp h
  obtain ⟨dayNanos, hdayNanos, h⟩ := bind_eq_ok_iff.mp h
  obtain ⟨time, htime, h⟩ := bind_eq_ok_iff.mp h
  obtain ⟨timeNanos, htimeNanos, h⟩ := bind_eq_ok_iff.mp h
  have hsplit := splitDesignator_eq_ok_iff.mp hsplit
  have hbody := List.takeWhile_append_dropWhile (p := (!isTimeMark ·)) (l := body)
  split at h
  · cases h
  · rename_i hsome
    obtain ⟨days, hdate, -⟩ := exists_dateNanos_iff.mp ⟨cs, hcs, hdayNanos⟩
    obtain ⟨hours, minutes, seconds, hsection, -⟩ :=
      exists_readTimeSection_iff.mp ⟨time, htime, htimeNanos⟩
    refine ⟨_, .mk (hbody.symm ▸ hsplit) hdate hsection fun hnil => hsome ?_⟩
    obtain ⟨hdateNil, htimeNil⟩ := List.append_eq_nil_iff.mp hnil
    exact ⟨List.isEmpty_iff.mpr ((components_eq_nil_iff areUnits_date hcs).mpr hdateNil),
      (isNone_of_readTimeSection htime).mpr htimeNil⟩

theorem read_eq_ok_iff {s : List Char} {d : Duration} : read s = .ok d ↔ Spells s d.nanos := by
  constructor
  · intro h
    obtain ⟨nanos, hspells⟩ := exists_spells_of_read h
    rw [read_of_spells hspells] at h
    rwa [ofNanos_eq_ok_iff.mp h]
  · intro h
    rw [read_of_spells h]
    exact ofNanos_eq_ok_iff.mpr rfl

end RecordFilter.Calendar.Duration
