import Mathlib.Data.List.TakeWhile
import RecordFilter.Proofs.Calendar.DurationGrammar
import RecordFilter.Proofs.Calendar.Machine

/-!
# Durations read on a machine

The reader of durations as a machine runs it. Sections are cut out of the text at byte positions,
and each product, sum and change of sign has to stay in its type. For no text does the machine stop
there: it gives the whole seconds and the nanoseconds of the duration that is read, or it refuses
the text for the same reason.
-/

namespace RecordFilter.Calendar.Machine

open RecordFilter.Text RecordFilter.Number
open Duration (isTimeMark)

/-! ## The numbers -/

/-- A whole number of seconds, minutes, hours or days, in nanoseconds. -/
def wholeNanos (secondsPerUnit : Int) (number : List Char) : Except Stop Int := do
  let n ← (wholeNumber 64 number).mapError .refused
  let seconds ← checked 128 (n * secondsPerUnit)
  checked 128 (seconds * nanosPerSecond)

/-- A difference of integers without a sign. -/
def minus (a b : Nat) : Except Stop Nat := if b ≤ a then .ok (a - b) else .error .overflow

/-- A part of a second. -/
def readPlaces (places : List Char) : Except Stop Int :=
  if 9 < byteCount places ∨ places.all isDigit = false then
    .error (.refused (.badFraction places))
  else if places = [] then .ok 0
  else do
    let digits ← (wholeNumber 128 places).mapError .refused
    let exponent ← minus 9 (if byteCount places < Nat.pow 2 32 then byteCount places else 9)
    let scale ← checked 128 (Nat.pow 10 exponent)
    checked 128 (digits * scale)

/-- Whole seconds and a part of a second, in nanoseconds with the sign. -/
def signedNanos (negative : Bool) (seconds part : Int) : Except Stop Int := do
  let seconds ← checked 128 seconds.natAbs
  let nanos ← checked 128 (seconds * nanosPerSecond)
  let magnitude ← checked 128 (nanos + part)
  if negative then checked 128 (-magnitude) else .ok magnitude

def readSeconds (number : List Char) : Except Stop Int := do
  let isPoint (c : Char) : Bool := c == '.' || c == ','
  let whole := number.takeWhile (!isPoint ·)
  let seconds ← (wholeNumber 64 whole).mapError .refused
  let part ← readPlaces ((number.dropWhile (!isPoint ·)).drop 1)
  signedNanos (whole.head? = some '-') seconds part

def componentNanos (c : Component) : Except Stop Int :=
  if c.unit = 'D' then wholeNanos 86400 c.number
  else if c.unit = 'H' then wholeNanos 3600 c.number
  else if c.unit = 'M' then wholeNanos 60 c.number
  else readSeconds c.number

/-- Adds the components to what came before. A total of more than 128 bits is refused. -/
def addNanos (total : Int) (cs : List Component) : Except Stop Int :=
  cs.foldlM (fun total c => do
    let nanos ← componentNanos c
    if (IntegerRange.signed 128).Holds (total + nanos) then .ok (total + nanos)
    else .error (.refused .durationOverflow)) total

/-! ## The whole text -/

/-- The text in front of the mark of the time and the text behind it. -/
def sections (body : List Char) : Except Stop (List Char × Option (List Char)) :=
  if body.any isTimeMark then do
    let mark := byteCount (body.takeWhile (!isTimeMark ·))
    let date ← slice body 0 mark
    let behind ← next body mark
    let time ← slice body behind (byteCount body)
    return (date, some time)
  else return (body, none)

def timeComponents : Option (List Char) → Except Stop (List Component)
  | none => .ok []
  | some time => do
    let cs ← components ['H', 'M', 'S'] time
    if cs.isEmpty then .error (.refused .emptyTime) else .ok cs

/-- The integer, unless it has more bits: then there is too much of the duration. -/
def fit (bits : Nat) (n : Int) : Except Stop Int :=
  if (IntegerRange.signed bits).Holds n then .ok n else .error (.refused .durationOverflow)

/-- The fields of a new duration. Whole seconds among the nanoseconds are carried, and then the
nanoseconds get the sign of the seconds. -/
def newDuration (seconds nanos : Int) : Except Stop (Int × Int) := do
  let seconds ← checked 64 (seconds + nanos.tdiv nanosPerSecond)
  let nanos := nanos.tmod nanosPerSecond
  if 0 < seconds ∧ nanos < 0 then return (seconds - 1, nanos + nanosPerSecond)
  else if seconds < 0 ∧ 0 < nanos then return (seconds + 1, nanos - nanosPerSecond)
  else return (seconds, nanos)

/-- The fields of the duration of so many nanoseconds. -/
def ofNanos (total : Int) : Except Stop (Int × Int) := do
  let seconds ← fit 64 (total.tdiv nanosPerSecond)
  let nanos ← fit 32 (total.tmod nanosPerSecond)
  newDuration seconds nanos

/-- The whole seconds and the nanoseconds of the duration that is read. -/
def readDuration (s : List Char) : Except Stop (Int × Int) := do
  let (negative, body) ← splitDesignator s
  let (date, time) ← sections body
  let days ← components ['D'] date
  let total ← addNanos 0 days
  let parts ← timeComponents time
  let total ← addNanos total parts
  if days.isEmpty ∧ parts.isEmpty then .error (.refused .emptyDuration)
  else
    let total ← if negative then checked 128 (-total) else .ok total
    ofNanos total

/-! ## Bounds -/

theorem holds_signed_of_natAbs_lt {bits : Nat} {n : Int} (h : n.natAbs < Nat.pow 2 (bits - 1)) :
    (IntegerRange.signed bits).Holds n := by
  have hpow : Int.pow 2 (bits - 1) = (Nat.pow 2 (bits - 1) : Nat) :=
    (Int.natCast_pow 2 (bits - 1)).symm
  simp only [IntegerRange.Holds, IntegerRange.signed, hpow]
  omega

theorem natAbs_le_of_holds_signed {bits : Nat} {n : Int} (h : (IntegerRange.signed bits).Holds n) :
    n.natAbs ≤ Nat.pow 2 (bits - 1) := by
  have hpow : Int.pow 2 (bits - 1) = (Nat.pow 2 (bits - 1) : Nat) :=
    (Int.natCast_pow 2 (bits - 1)).symm
  simp only [IntegerRange.Holds, IntegerRange.signed, hpow] at h
  omega

theorem natAbs_le_of_wholeNumber {bits : Nat} {s : List Char} {n : Int}
    (h : wholeNumber bits s = .ok n) : n.natAbs ≤ Nat.pow 2 (bits - 1) := by
  obtain ⟨-, -, hholds⟩ := wholeNumber_eq_ok_iff.mp h
  exact natAbs_le_of_holds_signed hholds

theorem lt_of_readPlaces {places : List Char} {part : Nat}
    (h : Duration.readPlaces places = .ok part) : part < nanosPerSecond := by
  obtain ⟨hlength, n, hn, rfl⟩ := Duration.readPlaces_eq_ok_iff.mp h
  have hlt := lt_of_digitsFrom hn
  have hpow : Nat.pow 10 places.length * Nat.pow 10 (9 - places.length) = nanosPerSecond := by
    have hadd : places.length + (9 - places.length) = 9 := by omega
    exact (Nat.pow_add 10 _ _).symm.trans (congrArg (Nat.pow 10) hadd)
  rw [Nat.zero_add, Nat.one_mul] at hlt
  rw [← hpow]
  exact Nat.mul_lt_mul_of_pos_right hlt (Nat.pow_pos (by decide))

/-- No component has more nanoseconds than the greatest number of days. -/
def greatestNanos : Nat := Nat.pow 2 63 * 86400 * nanosPerSecond

theorem wholeNanos_eq {secondsPerUnit : Nat} (h : secondsPerUnit ≤ 86400) (number : List Char) :
    wholeNanos secondsPerUnit number =
      ((wholeNumber 64 number).map fun n : Int =>
        n * secondsPerUnit * nanosPerSecond).mapError .refused := by
  unfold wholeNanos
  cases hread : wholeNumber 64 number with
  | error fault => rfl
  | ok n =>
    have hn := natAbs_le_of_wholeNumber hread
    have hseconds : (n * secondsPerUnit).natAbs ≤ Nat.pow 2 63 * 86400 := by
      rw [Int.natAbs_mul, Int.natAbs_natCast]
      exact Nat.mul_le_mul hn h
    have hnanos : (n * secondsPerUnit * nanosPerSecond).natAbs ≤ greatestNanos := by
      rw [Int.natAbs_mul, Int.natAbs_natCast]
      exact Nat.mul_le_mul_right _ hseconds
    have hfits : (IntegerRange.signed 128).Holds (n * secondsPerUnit) :=
      holds_signed_of_natAbs_lt (Nat.lt_of_le_of_lt hseconds (by decide))
    have hfits' : (IntegerRange.signed 128).Holds (n * secondsPerUnit * nanosPerSecond) :=
      holds_signed_of_natAbs_lt (Nat.lt_of_le_of_lt hnanos (by decide))
    simp only [Except.map, Except.mapError, bind, Except.bind, checked_eq hfits,
      checked_eq hfits']

theorem holds_of_le_nanosPerSecond {n : Nat} (h : n ≤ nanosPerSecond) :
    (IntegerRange.signed 128).Holds n :=
  holds_signed_of_natAbs_lt (Nat.lt_of_le_of_lt h (by decide))

theorem readPlaces_of_digits {places : List Char} {n : Nat} (hlength : places.length ≤ 9)
    (hn : digitsFrom 0 places = some n) :
    readPlaces places = .ok (n * Nat.pow 10 (9 - places.length) : Nat) := by
  have hdigits := isDigit_of_digitsFrom hn
  have hbytes : byteCount places = places.length :=
    byteCount_of_ascii fun c hc =>
      Nat.lt_of_le_of_lt (toNat_of_isDigit (hdigits c hc)).2 (by decide)
  have hread : ¬ (9 < byteCount places ∨ places.all isDigit = false) := by
    rintro (hlong | hother)
    · exact Nat.not_lt.mpr hlength (hbytes ▸ hlong)
    · cases (List.all_eq_true.mpr hdigits).symm.trans hother
  rw [readPlaces, if_neg hread]
  split
  · rename_i hnil
    subst hnil
    cases hn
    rw [Nat.zero_mul]
    rfl
  · rename_i hnil
    have hpart := lt_of_readPlaces (Duration.readPlaces_eq_ok_iff.mpr ⟨hlength, n, hn, rfl⟩)
    have hone : 0 < Nat.pow 10 (9 - places.length) := Nat.pow_pos (by decide)
    -- Each number on the way is at most the nanoseconds of a second.
    have hle : n ≤ n * Nat.pow 10 (9 - places.length) := Nat.le_mul_of_pos_right n hone
    have hpow : Nat.pow 10 (9 - places.length) ≤ nanosPerSecond :=
      Nat.pow_le_pow_right (by decide) (Nat.sub_le 9 _)
    have hwhole : wholeNumber 128 places = .ok (n : Int) :=
      wholeNumber_of_read (IntegerRange.read_of_digitsFrom (IntegerRange.holds_signed_zero 128)
        (holds_of_le_nanosPerSecond (Nat.le_of_lt (Nat.lt_of_le_of_lt hle hpart))) hnil hn)
    have hminus : minus 9 (if byteCount places < Nat.pow 2 32 then byteCount places else 9) =
        .ok (9 - places.length) := by
      rw [hbytes, if_pos (Nat.lt_of_le_of_lt hlength (by decide)), minus, if_pos hlength]
    have hscale := checked_eq (holds_of_le_nanosPerSecond hpow)
    have hproduct := checked_eq (holds_of_le_nanosPerSecond (Nat.le_of_lt hpart))
    rw [Int.natCast_mul] at hproduct ⊢
    simp only [hwhole, hminus, hscale, hproduct, Except.mapError, bind, Except.bind]

theorem readPlaces_eq (places : List Char) :
    readPlaces places =
      ((Duration.readPlaces places).map fun n : Nat => (n : Int)).mapError .refused := by
  by_cases h : places.length ≤ 9 ∧ ∃ n, digitsFrom 0 places = some n
  · obtain ⟨hlength, n, hn⟩ := h
    rw [readPlaces_of_digits hlength hn,
      Duration.readPlaces_eq_ok_iff.mpr ⟨hlength, n, hn, rfl⟩]
    rfl
  · have hbad : 9 < byteCount places ∨ places.all isDigit = false := by
      by_contra hgood
      obtain ⟨hbytes, hdigits⟩ := not_or.mp hgood
      rw [Bool.not_eq_false, List.all_eq_true] at hdigits
      have hlength := Nat.le_trans (length_le_byteCount places) (Nat.not_lt.mp hbytes)
      exact h ⟨hlength, exists_digitsFrom hdigits 0⟩
    have hrefused : Duration.readPlaces places = .error (.badFraction places) := by
      unfold Duration.readPlaces
      split
      · rfl
      · rename_i hlength
        cases hn : digitsFrom 0 places with
        | none => rfl
        | some n => exact absurd ⟨Nat.not_lt.mp hlength, n, hn⟩ h
    rw [readPlaces, if_pos hbad, hrefused]
    rfl

theorem holds_of_natAbs_le_greatest {n : Int} (h : n.natAbs ≤ greatestNanos) :
    (IntegerRange.signed 128).Holds n :=
  holds_signed_of_natAbs_lt (Nat.lt_of_le_of_lt h (by decide))

theorem holds_of_le_greatest {n : Nat} (h : n ≤ greatestNanos) :
    (IntegerRange.signed 128).Holds n :=
  holds_of_natAbs_le_greatest (Nat.le_trans (Nat.le_of_eq (Int.natAbs_natCast n)) h)

theorem le_greatest_of_seconds {seconds part : Nat} (hseconds : seconds ≤ Nat.pow 2 63)
    (hpart : part < nanosPerSecond) : seconds * nanosPerSecond + part ≤ greatestNanos := by
  have hsum := Nat.add_le_add (Nat.mul_le_mul_right nanosPerSecond hseconds) (Nat.le_of_lt hpart)
  exact Nat.le_trans hsum (by decide)

theorem natAbs_magnitude (seconds part : Nat) :
    (seconds * nanosPerSecond + part : Int).natAbs = seconds * nanosPerSecond + part := by
  rw [← Int.natCast_mul, ← Int.natCast_add, Int.natAbs_natCast]

theorem signedNanos_eq (negative : Bool) {n : Int} {part : Nat}
    (h : n.natAbs * nanosPerSecond + part ≤ greatestNanos) :
    signedNanos negative n part = .ok (if negative then -(n.natAbs * nanosPerSecond + part : Int)
      else n.natAbs * nanosPerSecond + part) := by
  have hwhole := Nat.le_trans (Nat.le_add_right _ part) h
  have hone : 0 < nanosPerSecond := by decide
  have hseconds := holds_of_le_greatest
    (Nat.le_trans (Nat.le_mul_of_pos_right n.natAbs hone) hwhole)
  have hnanos := holds_of_le_greatest hwhole
  rw [Int.natCast_mul] at hnanos
  rw [← natAbs_magnitude] at h
  have hmagnitude := holds_of_natAbs_le_greatest h
  rw [← Int.natAbs_neg] at h
  have hnegated := holds_of_natAbs_le_greatest h
  refine bind_eq_ok_iff.mpr ⟨_, checked_eq hseconds, ?_⟩
  refine bind_eq_ok_iff.mpr ⟨_, checked_eq hnanos, ?_⟩
  refine bind_eq_ok_iff.mpr ⟨_, checked_eq hmagnitude, ?_⟩
  cases negative with
  | false => rfl
  | true => simp only [if_true, checked_eq hnegated]

theorem readSeconds_eq (number : List Char) :
    readSeconds number = (Duration.readSeconds number).mapError .refused := by
  unfold readSeconds Duration.readSeconds
  simp only [readPlaces_eq]
  cases hwhole : wholeNumber 64 (number.takeWhile fun c => !(c == '.' || c == ',')) with
  | error fault => rfl
  | ok n =>
    cases hplaces : Duration.readPlaces
        ((number.dropWhile fun c => !(c == '.' || c == ',')).drop 1) with
    | error fault => rfl
    | ok part =>
      have hpart := lt_of_readPlaces hplaces
      have hle := le_greatest_of_seconds (natAbs_le_of_wholeNumber hwhole) hpart
      simp only [Except.map, Except.mapError, bind, Except.bind, signedNanos_eq _ hle,
        decide_eq_true_eq]
      rfl

theorem componentNanos_eq (c : Component) :
    componentNanos c = (Duration.componentNanos c).mapError .refused := by
  unfold componentNanos Duration.componentNanos
  split
  · exact wholeNanos_eq (Nat.le_refl 86400) _
  · split
    · exact wholeNanos_eq (by decide) _
    · split
      · exact wholeNanos_eq (by decide) _
      · exact readSeconds_eq _

theorem natAbs_le_of_wholeNanos {secondsPerUnit : Nat} (h : secondsPerUnit ≤ 86400)
    {number : List Char} {nanos : Int}
    (hread : (wholeNumber 64 number).map (fun n : Int =>
      n * secondsPerUnit * nanosPerSecond) = .ok nanos) : nanos.natAbs ≤ greatestNanos := by
  obtain ⟨n, hn, rfl⟩ := map_eq_ok_iff.mp hread
  rw [Int.natAbs_mul, Int.natAbs_mul, Int.natAbs_natCast, Int.natAbs_natCast]
  exact Nat.mul_le_mul_right _ (Nat.mul_le_mul (natAbs_le_of_wholeNumber hn) h)

theorem natAbs_le_of_readSeconds {number : List Char} {nanos : Int}
    (h : Duration.readSeconds number = .ok nanos) : nanos.natAbs ≤ greatestNanos := by
  obtain ⟨n, hn, h⟩ := bind_eq_ok_iff.mp h
  obtain ⟨part, hpart, h⟩ := bind_eq_ok_iff.mp h
  have hle := le_greatest_of_seconds (natAbs_le_of_wholeNumber hn) (lt_of_readPlaces hpart)
  rw [← natAbs_magnitude] at hle
  have hnanos := Except.ok.inj h
  split at hnanos
  · rwa [← hnanos, Int.natAbs_neg]
  · rwa [← hnanos]

theorem natAbs_le_of_componentNanos {c : Component} {nanos : Int}
    (h : Duration.componentNanos c = .ok nanos) : nanos.natAbs ≤ greatestNanos := by
  unfold Duration.componentNanos at h
  split at h
  · exact natAbs_le_of_wholeNanos (Nat.le_refl 86400) h
  · split at h
    · exact natAbs_le_of_wholeNanos (by decide) h
    · split at h
      · exact natAbs_le_of_wholeNanos (by decide) h
      · exact natAbs_le_of_readSeconds h

/-! ## The total -/

theorem foldlM_componentNanos (cs : List Component) (total : Int) :
    cs.foldlM (fun total c => (Duration.componentNanos c).map (total + ·)) total =
      (Duration.totalNanos cs).map (total + ·) := by
  induction cs generalizing total with
  | nil => exact congrArg Except.ok (Int.add_zero total).symm
  | cons c cs ih =>
    rw [Duration.totalNanos, List.foldlM_cons, List.foldlM_cons]
    cases Duration.componentNanos c with
    | error fault => rfl
    | ok nanos =>
      refine (ih (total + nanos)).trans ?_
      refine Eq.trans ?_ (congrArg (Except.map (total + ·)) (ih (0 + nanos))).symm
      cases Duration.totalNanos cs with
      | error fault => rfl
      | ok rest => simp only [Except.map, Int.zero_add, Int.add_assoc]

theorem totalNanos_cons (c : Component) (cs : List Component) :
    Duration.totalNanos (c :: cs) = (Duration.componentNanos c).bind fun nanos =>
      (Duration.totalNanos cs).map (nanos + ·) := by
  rw [Duration.totalNanos, List.foldlM_cons]
  cases Duration.componentNanos c with
  | error fault => rfl
  | ok nanos =>
    change cs.foldlM _ (0 + nanos) = _
    rw [foldlM_componentNanos, Int.zero_add]
    rfl

theorem natAbs_le_of_totalNanos {cs : List Component} {total : Int}
    (h : Duration.totalNanos cs = .ok total) : total.natAbs ≤ cs.length * greatestNanos := by
  induction cs generalizing total with
  | nil =>
    cases h
    exact Nat.zero_le _
  | cons c cs ih =>
    rw [totalNanos_cons] at h
    obtain ⟨nanos, hnanos, h⟩ := bind_eq_ok_iff.mp h
    obtain ⟨rest, hrest, rfl⟩ := map_eq_ok_iff.mp h
    have hone := natAbs_le_of_componentNanos hnanos
    have hsum := Int.natAbs_add_le nanos rest
    rw [List.length_cons, Nat.succ_mul]
    have := ih hrest
    omega

/-- With what came before there are four components at most, so the total stays within 128 bits. -/
theorem addNanos_eq {cs : List Component} {total : Int} {count : Nat}
    (htotal : total.natAbs ≤ count * greatestNanos) (hcount : count + cs.length ≤ 4) :
    addNanos total cs = ((Duration.totalNanos cs).map (total + ·)).mapError .refused := by
  -- `count` components came before, and the total is no more than that many of the greatest.
  induction cs generalizing total count with
  | nil => exact congrArg Except.ok (Int.add_zero total).symm
  | cons c cs ih =>
    rw [addNanos, List.foldlM_cons, componentNanos_eq, totalNanos_cons]
    cases hc : Duration.componentNanos c with
    | error fault => rfl
    | ok nanos =>
      rw [List.length_cons] at hcount
      have hnext : (total + nanos).natAbs ≤ (count + 1) * greatestNanos := by
        rw [Nat.succ_mul]
        exact Nat.le_trans (Int.natAbs_add_le total nanos)
          (Nat.add_le_add htotal (natAbs_le_of_componentNanos hc))
      have hfour : (count + 1) * greatestNanos ≤ 4 * greatestNanos :=
        Nat.mul_le_mul_right _ (by omega)
      have hfits : (IntegerRange.signed 128).Holds (total + nanos) :=
        holds_signed_of_natAbs_lt
          (Nat.lt_of_le_of_lt (Nat.le_trans hnext hfour) (by decide))
      have hrest : addNanos (total + nanos) cs = _ := ih hnext (by omega)
      change (if _ then _ else _) >>= _ = _
      rw [if_pos hfits]
      refine hrest.trans ?_
      cases Duration.totalNanos cs with
      | error fault => rfl
      | ok rest => simp only [Except.map, Except.mapError, Except.bind, Int.add_assoc]

/-! ## The sections -/

/-- The text behind the mark of the time, if it is there. -/
def behindMark (body : List Char) : Option (List Char) :=
  match body.dropWhile (!isTimeMark ·) with
  | [] => none
  | _ :: time => some time

theorem sections_eq (body : List Char) :
    sections body = .ok (body.takeWhile (!isTimeMark ·), behindMark body) := by
  have hsplit := List.takeWhile_append_dropWhile (p := (!isTimeMark ·)) (l := body)
  have hhead := List.head?_dropWhile_not (!isTimeMark ·) body
  have hfront : ∀ c ∈ body.takeWhile (!isTimeMark ·), isTimeMark c = false := by
    intro c hc
    simpa using List.mem_takeWhile_imp hc
  unfold sections behindMark
  generalize body.takeWhile (!isTimeMark ·) = date at hsplit hfront ⊢
  generalize body.dropWhile (!isTimeMark ·) = back at hsplit hhead ⊢
  subst hsplit
  cases back with
  | nil =>
    have hany : ¬ (date ++ []).any isTimeMark = true := by
      rw [List.append_nil, List.any_eq_true]
      rintro ⟨c, hc, hmark⟩
      cases (hfront c hc).symm.trans hmark
    rw [if_neg hany, List.append_nil]
    rfl
  | cons mark time =>
    have hmark : isTimeMark mark = true := by simpa using hhead
    have hascii : mark.toNat < 0x80 := by
      rcases Duration.isTimeMark_iff.mp hmark with rfl | rfl <;> decide
    have hany : (date ++ mark :: time).any isTimeMark = true :=
      List.any_eq_true.mpr ⟨mark, by simp, hmark⟩
    have hdate : slice (date ++ mark :: time) 0 (byteCount date) = .ok date :=
      slice_eq [] date (mark :: time)
    have htime := slice_eq (date ++ [mark]) time []
    rw [List.append_nil, List.append_assoc, List.singleton_append] at htime
    rw [if_pos hany]
    refine bind_eq_ok_iff.mpr ⟨_, hdate, ?_⟩
    refine bind_eq_ok_iff.mpr ⟨_, next_eq date time hascii, ?_⟩
    exact bind_eq_ok_iff.mpr ⟨_, htime, rfl⟩

theorem timeComponents_eq (body : List Char) :
    timeComponents (behindMark body) =
      ((Duration.readTimeSection body).map (·.getD [])).mapError .refused := by
  unfold behindMark Duration.readTimeSection
  cases body.dropWhile (!isTimeMark ·) with
  | nil => rfl
  | cons mark time =>
    rw [timeComponents, components_eq]
    change _ = ((Calendar.components ['H', 'M', 'S'] time >>= _).map _).mapError _
    cases Calendar.components ['H', 'M', 'S'] time with
    | error fault => rfl
    | ok cs =>
      simp only [Except.map, Except.mapError, bind, Except.bind]
      split <;> rfl

theorem isEmpty_getD_of_readTimeSection {body : List Char} {time : Option (List Component)}
    (h : Duration.readTimeSection body = .ok time) :
    (time.getD []).isEmpty = true ↔ time.isNone = true := by
  unfold Duration.readTimeSection at h
  split at h
  · cases h
    exact iff_of_true rfl rfl
  · obtain ⟨cs, -, h⟩ := bind_eq_ok_iff.mp h
    split at h
    · cases h
    · rename_i hsome
      cases h
      exact iff_of_false hsome Bool.false_ne_true

theorem length_components_le {units s : List Char} {cs : List Component} (hunits : AreUnits units)
    (h : Calendar.components units s = .ok cs) : cs.length ≤ units.length := by
  obtain ⟨values, hparts, rfl⟩ := (components_eq_ok_iff hunits).mp h
  rw [← hparts.length_eq]
  exact List.length_filterMap_le _ _

theorem length_timeComponents_le {body : List Char} {time : Option (List Component)}
    (h : Duration.readTimeSection body = .ok time) : (time.getD []).length ≤ 3 := by
  unfold Duration.readTimeSection at h
  split at h
  · cases h
    exact Nat.zero_le 3
  · obtain ⟨cs, hcs, h⟩ := bind_eq_ok_iff.mp h
    split at h
    · cases h
    · cases h
      exact length_components_le Duration.areUnits_time hcs

/-! ## The reader -/

theorem newDuration_eq {total : Int}
    (h : (IntegerRange.signed 64).Holds (total.tdiv nanosPerSecond)) :
    newDuration (total.tdiv nanosPerSecond) (total.tmod nanosPerSecond) =
      .ok (total.tdiv nanosPerSecond, total.tmod nanosPerSecond) := by
  have hcarried : (total.tmod nanosPerSecond).tdiv nanosPerSecond = 0 := by
    rw [← Int.natAbs_eq_zero, Int.natAbs_tdiv, Int.natAbs_natCast]
    exact Nat.div_eq_of_lt (Duration.natAbs_tmod_lt total)
  have hsign := Duration.oneSign total
  have hpositive : ¬ (0 < total.tdiv nanosPerSecond ∧ total.tmod nanosPerSecond < 0) := by omega
  have hnegative : ¬ (total.tdiv nanosPerSecond < 0 ∧ 0 < total.tmod nanosPerSecond) := by omega
  rw [newDuration, hcarried, Int.add_zero, checked_eq h, Int.tmod_tmod]
  simp only [bind, Except.bind, if_neg hpositive, if_neg hnegative, pure, Except.pure]

theorem ofNanos_eq (total : Int) :
    ofNanos total =
      ((Duration.ofNanos total).map fun d => (d.seconds, d.subsecond)).mapError .refused := by
  unfold ofNanos Duration.ofNanos Duration.of?
  by_cases h : (IntegerRange.signed 64).Holds (total.tdiv nanosPerSecond)
  · have hseconds : fit 64 (total.tdiv nanosPerSecond) = .ok (total.tdiv nanosPerSecond) := if_pos h
    have hnanos : fit 32 (total.tmod nanosPerSecond) = .ok (total.tmod nanosPerSecond) :=
      if_pos (holds_signed_of_natAbs_lt (Nat.lt_trans (Duration.natAbs_tmod_lt total) (by decide)))
    rw [dif_pos h, hseconds]
    refine bind_eq_ok_iff.mpr ⟨_, rfl, bind_eq_ok_iff.mpr ⟨_, hnanos, newDuration_eq h⟩⟩
  · have hseconds : fit 64 (total.tdiv nanosPerSecond) = .error (.refused .durationOverflow) :=
      if_neg h
    rw [dif_neg h, hseconds]
    rfl

theorem checked_neg_eq {total : Int} (h : total.natAbs ≤ 4 * greatestNanos) :
    checked 128 (-total) = .ok (-total) := by
  rw [← Int.natAbs_neg] at h
  exact checked_eq (holds_signed_of_natAbs_lt (Nat.lt_of_le_of_lt h (by decide)))

theorem readDuration_eq (s : List Char) :
    readDuration s =
      ((Duration.read s).map fun d => (d.seconds, d.subsecond)).mapError .refused := by
  rw [readDuration, splitDesignator_eq, Duration.read]
  -- Where a part is refused, both stop. Where it is read, its bound goes into those of the total.
  cases Calendar.splitDesignator s with
  | error fault => rfl
  | ok split =>
    obtain ⟨negative, body⟩ := split
    simp only [Except.mapError, bind, Except.bind, sections_eq, components_eq]
    cases hdays : Calendar.components ['D'] (body.takeWhile (!isTimeMark ·)) with
    | error fault => rfl
    | ok days =>
      have hcount : days.length ≤ 1 := length_components_le Duration.areUnits_date hdays
      have hzero : (0 : Int).natAbs ≤ 0 * greatestNanos := Nat.zero_le _
      simp only [timeComponents_eq, addNanos_eq hzero (show 0 + days.length ≤ 4 by omega)]
      cases hdayNanos : Duration.totalNanos days with
      | error fault => rfl
      | ok dayNanos =>
        have hdayBound : dayNanos.natAbs ≤ 1 * greatestNanos :=
          Nat.le_trans (natAbs_le_of_totalNanos hdayNanos) (Nat.mul_le_mul_right _ hcount)
        cases htime : Duration.readTimeSection body with
        | error fault => rfl
        | ok time =>
          have htimeCount := length_timeComponents_le htime
          simp only [Except.map, Except.mapError, Int.zero_add,
            addNanos_eq hdayBound (show 1 + (time.getD []).length ≤ 4 by omega)]
          cases htimeNanos : Duration.totalNanos (time.getD []) with
          | error fault => rfl
          | ok timeNanos =>
            have hnone : (days.isEmpty = true ∧ (time.getD []).isEmpty = true) ↔
                (days.isEmpty = true ∧ time.isNone = true) :=
              and_congr_right' (isEmpty_getD_of_readTimeSection htime)
            have htimeBound : timeNanos.natAbs ≤ 3 * greatestNanos :=
              Nat.le_trans (natAbs_le_of_totalNanos htimeNanos)
                (Nat.mul_le_mul_right _ htimeCount)
            have htotal : (dayNanos + timeNanos).natAbs ≤ 4 * greatestNanos := by
              have hsum := Int.natAbs_add_le dayNanos timeNanos
              omega
            dsimp only
            rw [if_congr hnone rfl rfl, checked_neg_eq htotal]
            split
            · rfl
            · cases negative with
              | false => exact ofNanos_eq _
              | true => exact ofNanos_eq _

theorem readDuration_ne (s : List Char) :
    readDuration s ≠ .error .overflow ∧ readDuration s ≠ .error .split := by
  rw [readDuration_eq]
  cases Duration.read s with
  | ok d => exact ⟨nofun, nofun⟩
  | error fault => exact ⟨nofun, nofun⟩

end RecordFilter.Calendar.Machine

namespace RecordFilter.Calendar.Duration

open RecordFilter.Number

/-- A text is read just where it spells a duration whose whole seconds are an integer of 64 bits,
and as what it spells, in seconds and nanoseconds of one sign. A machine reads the same and never
gives up. -/
theorem read_iff_spells :
    (∀ s d, read s = .ok d ↔ Spells s d.nanos) ∧
      (∀ s, (∃ d, read s = .ok d) ↔ ∃ nanos, Spells s nanos ∧
        (IntegerRange.signed 64).Holds (nanos.tdiv nanosPerSecond)) ∧
      (∀ d : Duration, d.nanos = d.seconds * nanosPerSecond + d.subsecond ∧
        d.subsecond.natAbs < nanosPerSecond ∧
        (0 ≤ d.seconds ∧ 0 ≤ d.subsecond ∨ d.seconds ≤ 0 ∧ d.subsecond ≤ 0)) ∧
      ∀ s, Machine.readDuration s =
          ((read s).map fun d => (d.seconds, d.subsecond)).mapError .refused ∧
        Machine.readDuration s ≠ .error .overflow ∧ Machine.readDuration s ≠ .error .split := by
  refine ⟨fun s d => read_eq_ok_iff, fun s => ⟨?_, ?_⟩, fun d => ⟨?_, d.natAbs_subsecond_lt, ?_⟩,
    fun s => ⟨Machine.readDuration_eq s, Machine.readDuration_ne s⟩⟩
  · rintro ⟨d, hd⟩
    exact ⟨d.nanos, read_eq_ok_iff.mp hd, d.seconds_holds⟩
  · rintro ⟨nanos, hspells, hholds⟩
    exact ⟨⟨nanos, hholds⟩, read_eq_ok_iff.mpr hspells⟩
  · exact (Int.tdiv_mul_add_tmod d.nanos nanosPerSecond).symm
  · exact oneSign d.nanos

example : read "-P1DT-0,5s".toList = .ok ⟨-86399500000000, by decide⟩ ∧
    read "P1H".toList = .error (.unexpected 'H') ∧
    read "PT٣S".toList = .error (.badNumber ['٣']) := by decide

end RecordFilter.Calendar.Duration
