import RecordFilter.Proofs.Calendar.Instant
import RecordFilter.Proofs.Coercion.Temporal
import RecordFilter.Render.Document

/-!
# Instants that cannot be written or read back

An instant is read in more forms than the one in which it is written. It has a text unless its UTC
reading is behind the calendar, and the text is read again unless its year is before 0.
-/

namespace RecordFilter

open RecordFilter.Calendar RecordFilter.Number RecordFilter.Text

/-! ## Reading -/

namespace Strategy

theorem timestamped_readInstant (s : List Char) : Yields (readInstant s) Instant.Timestamped := by
  unfold readInstant
  split
  · rename_i hread
    exact yields_ok (timestamped_of_readTimestamp? hread)
  · refine (yields_trivial _).bind fun millis _ t ht => ?_
    exact timestamped_of_ofMillis? (orElse_eq_ok_iff.mp ht)

theorem readInstant_text {u : DateTime} (h : 0 ≤ u.date.year) :
    readInstant (u.text ++ ['Z']) = .ok ⟨u, 0⟩ := by
  rw [readInstant, readTimestamp?_text h]

theorem readInstant_text_of_neg {u : DateTime} (h : u.date.year < 0) :
    readInstant (u.text ++ ['Z']) = .error .instantFormat := by
  have hmem : 'Z' ∈ u.text ++ ['Z'] := List.mem_append_right _ (List.mem_singleton_self _)
  rw [readInstant, readTimestamp?_text_of_neg h]
  cases hread : (IntegerRange.signed 64).read (u.text ++ ['Z']) with
  | error e => rfl
  | ok n =>
    -- Milliseconds are not read either: the letter behind is no digit.
    have hdigits := IntegerRange.digits_read _ n hread 'Z' hmem
    exact absurd hdigits (by decide)

end Strategy

theorem Calendar.Instant.text?_eq_some_iff {t : Instant} {s : List Char} :
    t.text? = some s ↔ ∃ u, t.utc? = some u ∧ s = u.text ++ ['Z'] := by
  rw [text?, Option.map_eq_some_iff]
  exact exists_congr fun u => and_congr_right fun _ => eq_comm

namespace Coercer

variable {c : Coercer} (hc : c.IsStandard)

include hc

theorem IsStandard.coerce_instant_eq_ok_iff {raw : String} {t : Instant} :
    c.coerce (.scalar .instant) raw = .ok ⟨.instant t, .scalar .instant⟩ ↔
      Strategy.readInstant (trimChars raw.toList) = .ok t := by
  rw [hc.coerce_temporal_eq_ok_iff rfl rfl]
  simp only [Strategy.readTemporal]
  constructor
  · rintro ⟨-, h⟩
    obtain ⟨t', ht', heq⟩ := map_eq_ok_iff.mp h
    cases heq
    exact ht'
  · intro h
    refine ⟨fun hblank => ?_, map_eq_ok_iff.mpr ⟨t, h, rfl⟩⟩
    rw [hblank] at h
    cases h

end Coercer

/-! ## Writing -/

theorem exists_text?_instant {t : Instant} :
    (∃ s, (Value.instant t).text? = some s) ↔ ∃ u, t.utc? = some u := by
  change (∃ s, (t.utc?.map fun u => u.text ++ ['Z']).map String.ofList = some s) ↔ _
  cases t.utc? <;> simp

theorem Document.exists_render_instant {path : Path} {t : Instant} {declared : FieldType} :
    (∃ d, Document.render (.check ⟨path, .eq, .value ⟨.instant t, declared⟩⟩) = .ok d) ↔
      ∃ s, (Value.instant t).text? = some s := by
  simp only [render, condition, ofValue, ofPlain, textOf]
  cases (Value.instant t).text? with
  | none => constructor <;> (rintro ⟨_, h⟩; cases h)
  | some s => exact ⟨fun _ => ⟨s, rfl⟩, fun _ => ⟨_, rfl⟩⟩

theorem exists_instant_of_same {v : Value} {t : Instant} (h : v.same (.instant t) = true) :
    ∃ t', v = .instant t' := by
  cases v with
  | instant t' => exact ⟨t', rfl⟩
  | _ => simp [Value.same] at h

theorem Coercer.IsStandard.coerce_utcText {c : Coercer} (hc : c.IsStandard) (u : DateTime)
    {t : Instant} (hmoment : u.moment = t.moment) :
    (∃ w, c.coerce (.scalar .instant) (String.ofList (u.text ++ ['Z'])) = .ok w ∧
      w.value.same (.instant t) = true) ↔ 0 ≤ u.date.year := by
  have htidy : trimChars (u.text ++ ['Z']) = u.text ++ ['Z'] :=
    (u.plain_text.append (plain_singleton (c := 'Z') rfl)).tidy.trimChars_eq
  constructor
  · rintro ⟨⟨v, declared⟩, hw, hsame⟩
    refine Int.not_lt.mp fun hneg => ?_
    obtain ⟨t', rfl⟩ := exists_instant_of_same hsame
    obtain rfl : declared = .scalar .instant := (coerce_eq_ok_iff.mp hw).2
    have hread := hc.coerce_instant_eq_ok_iff.mp hw
    rw [String.toList_ofList, htidy, Strategy.readInstant_text_of_neg hneg] at hread
    cases hread
  · intro hyear
    refine ⟨⟨.instant ⟨u, 0⟩, .scalar .instant⟩, hc.coerce_instant_eq_ok_iff.mpr ?_, ?_⟩
    · rw [String.toList_ofList, htidy, Strategy.readInstant_text hyear]
    · have hutc : Instant.moment ⟨u, 0⟩ = t.moment := by
        rw [← hmoment, Instant.moment, Int.zero_mul, Int.sub_zero]
      simp [Value.same, Instant.compare, hutc]

namespace Coercer

/-- The text of an instant is there up to the last moment of the calendar, and it is made into the
same instant again from the year 0 on. -/
theorem instant_text {c : Coercer} (hc : c.IsStandard) {raw : String} {t : Instant}
    (h : c.coerce (.scalar .instant) raw = .ok ⟨.instant t, .scalar .instant⟩) :
    ((∃ s, (Value.instant t).text? = some s) ↔ t.moment ≤ DateTime.lastMoment) ∧
    (∀ path, (∃ d, Document.render
        (.check ⟨path, .eq, .value ⟨.instant t, .scalar .instant⟩⟩) = .ok d) ↔
      t.moment ≤ DateTime.lastMoment) ∧
    ∀ s, (Value.instant t).text? = some s →
      ((∃ w, c.coerce (.scalar .instant) s = .ok w ∧ w.value.same (.instant t) = true) ↔
        DateTime.yearZero ≤ t.moment) := by
  have ht := Strategy.timestamped_readInstant _ t (hc.coerce_instant_eq_ok_iff.mp h)
  have htext := exists_text?_instant.trans (Instant.isSome_utc?_iff ht)
  refine ⟨htext, fun path => Document.exists_render_instant.trans htext, fun s hs => ?_⟩
  obtain ⟨cs, hchars, rfl⟩ := Option.map_eq_some_iff.mp hs
  obtain ⟨u, hu, rfl⟩ := Instant.text?_eq_some_iff.mp hchars
  have hmoment := Instant.moment_of_utc? ht.near hu
  rw [hc.coerce_utcText u hmoment, ← hmoment]
  exact DateTime.year_nonneg_iff

theorem validDate_leapDay : ValidDate 2028 2 29 := by decide

/-- Half past twelve on a leap day, two hours ahead of UTC. -/
def leapDay : Instant :=
  ⟨⟨⟨2028, 2, 29, validDate_leapDay⟩, ⟨12, 30, 0, 500000000, by decide⟩⟩, 7200⟩

theorem instant_text_leapDay :
    standard.coerce (.scalar .instant) "2028-02-29T12:30:00.5+02:00" =
      .ok ⟨.instant leapDay, .scalar .instant⟩ ∧
    ((∃ s, (Value.instant leapDay).text? = some s) ↔ leapDay.moment ≤ DateTime.lastMoment) ∧
    (∀ path, (∃ d, Document.render
        (.check ⟨path, .eq, .value ⟨.instant leapDay, .scalar .instant⟩⟩) = .ok d) ↔
      leapDay.moment ≤ DateTime.lastMoment) ∧
    ∀ s, (Value.instant leapDay).text? = some s →
      ((∃ w, standard.coerce (.scalar .instant) s = .ok w ∧
          w.value.same (.instant leapDay) = true) ↔ DateTime.yearZero ≤ leapDay.moment) := by
  have hcoerce : standard.coerce (.scalar .instant) "2028-02-29T12:30:00.5+02:00" =
      .ok ⟨.instant leapDay, .scalar .instant⟩ := rfl
  exact ⟨hcoerce, instant_text isStandard_standard hcoerce⟩

/-- The last second of the calendar, an hour behind UTC. -/
def closingSecond : Instant := ⟨⟨Date.latest, ⟨23, 59, 59, 0, by decide⟩⟩, -3600⟩

/-- A millisecond before the year 0. -/
def beforeYearZero : Instant :=
  .ofUtc ⟨⟨-1, 12, 31, by decide⟩, ⟨23, 59, 59, 999000000, by decide⟩⟩

/-- Instants are made of operands of both forms that have no text, or one that is not read again. -/
theorem instant_text_missing :
    (standard.coerce (.scalar .instant) "9999-12-31T23:59:59-01:00" =
        .ok ⟨.instant closingSecond, .scalar .instant⟩ ∧
      (Value.instant closingSecond).text? = none ∧
      Document.render (.check ⟨⟨"", [], .scalar .instant⟩, .eq,
        .value ⟨.instant closingSecond, .scalar .instant⟩⟩) = .error .unwritable) ∧
    standard.coerce (.scalar .instant) "-62167219200001" =
        .ok ⟨.instant beforeYearZero, .scalar .instant⟩ ∧
      (Value.instant beforeYearZero).text? = some "-0001-12-31T23:59:59.999000000Z" ∧
      standard.coerce (.scalar .instant) "-0001-12-31T23:59:59.999000000Z" =
        .error (.invalid "-0001-12-31T23:59:59.999000000Z" (.scalar .instant) .instantFormat) :=
  ⟨⟨rfl, rfl, rfl⟩, rfl, rfl, rfl⟩

end Coercer

end RecordFilter
