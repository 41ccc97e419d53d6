import RecordFilter.Proofs.Calendar.Forms
import RecordFilter.Proofs.Coercion.Temporal

/-!
# Operands in the forms of dates and date-times

A date is read in each of its forms but one: where the month is in front of the day and the day
could be a month, the two are exchanged. A date-time is read in each of its forms.
-/

namespace RecordFilter

open RecordFilter.Calendar RecordFilter.Text

/-! ## Tidy forms -/

namespace Text

theorem Tidy.append {a b : List Char} (ha : Tidy a) (hb : Tidy b) (hfront : a ≠ [])
    (hback : b ≠ []) (middle : List Char) : Tidy (a ++ middle ++ b) where
  head := by
    rw [List.append_assoc, List.head?_append_of_ne_nil _ hfront]
    exact ha.head
  last := by
    rw [List.getLast?_append_of_ne_nil _ hback]
    exact hb.last

end Text

theorem Calendar.Date.plain_marked {mark : Char} (hmark : isPlain mark = true)
    (first second : Nat) (year : Int) : Plain (Date.marked mark first second year) :=
  (plain_padded 2 first).append_cons hmark
    ((plain_padded 2 second).append_cons hmark (plain_padded 4 _))

theorem Calendar.TimeOfDay.plain_clock (t : TimeOfDay) : Plain t.clock :=
  (plain_padded 2 t.hour).append_cons rfl (plain_padded 2 t.minute)

theorem Calendar.TimeOfDay.plain_clockSeconds (t : TimeOfDay) : Plain t.clockSeconds :=
  t.plain_clock.append_cons rfl (plain_padded 2 t.second)

theorem Calendar.TimeOfDay.IsClock.plain {t : TimeOfDay} {s : List Char} (h : t.IsClock s) :
    Plain s := by
  cases h with
  | minutes => exact t.plain_clock
  | seconds => exact t.plain_clockSeconds

theorem Calendar.TimeOfDay.IsTime.plain {t : TimeOfDay} {s : List Char} (h : t.IsTime s) :
    Plain s := by
  cases h with
  | clock h => exact h.plain
  | places hsome hdigits =>
    exact t.plain_clockSeconds.append_cons rfl (plain_of_forall_isDigit hsome hdigits)

namespace Coercer

variable {c : Coercer} {d : Date} {s : List Char}

/-- The operand is the value, where this type is asked for. -/
def Reads (c : Coercer) (t : Scalar) (s : List Char) (v : Value) : Prop :=
  c.coerce (.scalar t) (String.ofList s) = .ok ⟨v, .scalar t⟩

theorem IsStandard.reads_date (hc : c.IsStandard) (hplain : Plain s) (h : readDate? s = some d) :
    c.Reads .date s (.date d) := by
  refine (hc.coerce_temporal_eq_ok_iff rfl rfl).mpr ?_
  rw [String.toList_ofList, hplain.tidy.trimChars_eq]
  refine ⟨hplain.ne_nil, ?_⟩
  rw [Strategy.readTemporal, h]
  rfl

theorem IsStandard.reads_datetime (hc : c.IsStandard) (htidy : Tidy s) (hnil : s ≠ [])
    {t : DateTime} (h : readDateTime? s = some t) : c.Reads .datetime s (.datetime t) := by
  refine (hc.coerce_temporal_eq_ok_iff rfl rfl).mpr ?_
  rw [String.toList_ofList, htidy.trimChars_eq]
  refine ⟨hnil, ?_⟩
  rw [Strategy.readTemporal, h]
  rfl

theorem IsStandard.reads_spaced (hc : c.IsStandard) {date clock : List Char} (hdate : Plain date)
    (hclock : Plain clock) {t : DateTime}
    (h : readDateTime? (date ++ ' ' :: clock) = some t) :
    c.Reads .datetime (date ++ ' ' :: clock) (.datetime t) := by
  have htidy := hdate.tidy.append hclock.tidy hdate.ne_nil hclock.ne_nil [' ']
  rw [List.append_assoc, List.singleton_append] at htidy
  exact hc.reads_datetime htidy (List.append_ne_nil_of_right_ne_nil _ (List.cons_ne_nil _ _)) h

/-! ## The theorem -/

/-- The forms of a date whose year is not negative, and those of its times of day. -/
theorem IsStandard.reads_forms (hc : c.IsStandard) (hyear : 0 ≤ d.year) :
    (∀ s ∈ [d.text, d.dayFirst '/', d.dayFirst '-'], c.Reads .date s (.date d)) ∧
      (∃ d', c.Reads .date (d.monthFirst '/') (.date d') ∧
        (d' = d ↔ 12 < d.day ∨ d.day = d.month) ∧
        (d' ≠ d → d'.year = d.year ∧ d'.month = d.day ∧ d'.day = d.month)) ∧
      (∀ t time, t.IsTime time →
        c.Reads .datetime (d.text ++ 'T' :: time) (.datetime ⟨d, t⟩)) ∧
      (∀ t clock, t.IsClock clock →
        c.Reads .datetime (d.text ++ ' ' :: clock) (.datetime ⟨d, t⟩) ∧
          c.Reads .datetime (d.dayFirst '/' ++ ' ' :: clock) (.datetime ⟨d, t⟩)) ∧
      ∀ s d', c.Reads .date s (.date d') → c.Reads .datetime s (.datetime (.atMidnight d')) := by
  have hslashed : Plain (d.dayFirst '/') := Date.plain_marked rfl _ _ _
  have hdashed : Plain (d.dayFirst '-') := Date.plain_marked rfl _ _ _
  refine ⟨?_, ?_, fun t time ht => ?_, fun t clock ht => ⟨?_, ?_⟩,
    fun s d' h => hc.coerce_datetime_of_date h⟩
  · simp only [List.forall_mem_cons]
    exact ⟨hc.reads_date d.plain_text (readDate?_text d),
      hc.reads_date hslashed (Date.readDate?_dayFirst (.inl rfl) hyear),
      hc.reads_date hdashed (Date.readDate?_dayFirst (.inr rfl) hyear), nofun⟩
  · obtain ⟨d', hread, hsame, hother⟩ := Date.exists_readDate?_monthFirst hyear
    exact ⟨d', hc.reads_date (Date.plain_marked rfl _ _ _) hread, hsame, hother⟩
  · have hplain := d.plain_text.append_cons (c := 'T') rfl ht.plain
    exact hc.reads_datetime hplain.tidy hplain.ne_nil (readDateTime?_text_time ht)
  · exact hc.reads_spaced d.plain_text ht.plain (readDateTime?_text_clock ht)
  · exact hc.reads_spaced hslashed ht.plain (readDateTime?_dayFirst_clock hyear ht)

/-- The third of February. -/
def thirdOfFebruary : Date := ⟨2024, 2, 3, by decide⟩

theorem thirdOfFebruary_read :
    0 ≤ thirdOfFebruary.year ∧
      Coercer.standard.Reads .date "03/02/2024".toList (.date thirdOfFebruary) ∧
      Coercer.standard.Reads .date "02/03/2024".toList (.date ⟨2024, 3, 2, by decide⟩) ∧
      Coercer.standard.Reads .datetime "2024-02-03T04:05:06.7".toList
        (.datetime ⟨thirdOfFebruary, ⟨4, 5, 6, 700000000, by decide⟩⟩) ∧
      Coercer.standard.Reads .datetime "03/02/2024 04:05".toList
        (.datetime ⟨thirdOfFebruary, ⟨4, 5, 0, 0, by decide⟩⟩) := by
  have hyear : 0 ≤ thirdOfFebruary.year := by decide
  obtain ⟨hforms, ⟨d', hread, hsame, hother⟩, htime, hclock, -⟩ :=
    isStandard_standard.reads_forms hyear
  have hexchanged : d' = ⟨2024, 3, 2, by decide⟩ := by
    have hne : d' ≠ thirdOfFebruary := mt hsame.mp (by decide)
    obtain ⟨year, month, day, _⟩ := d'
    obtain ⟨rfl, rfl, rfl⟩ := hother hne
    rfl
  rw [hexchanged] at hread
  have hslashed : thirdOfFebruary.dayFirst '/' = "03/02/2024".toList := by decide
  have hmonthFirst : thirdOfFebruary.monthFirst '/' = "02/03/2024".toList := by decide
  have hplaces := htime ⟨4, 5, 6, 700000000, by decide⟩ _
    (.places (List.cons_ne_nil '7' []) (List.forall_mem_singleton.mpr rfl) rfl rfl)
  have hminutes := (hclock ⟨4, 5, 0, 0, by decide⟩ _ (.minutes rfl rfl)).2
  have hplacesText : thirdOfFebruary.text ++
      'T' :: ((⟨4, 5, 6, 700000000, by decide⟩ : TimeOfDay).clockSeconds ++ '.' :: ['7']) =
        "2024-02-03T04:05:06.7".toList := by decide
  have hminutesText : thirdOfFebruary.dayFirst '/' ++
      ' ' :: (⟨4, 5, 0, 0, by decide⟩ : TimeOfDay).clock = "03/02/2024 04:05".toList := by decide
  rw [hplacesText] at hplaces
  rw [hminutesText] at hminutes
  rw [hmonthFirst] at hread
  have hdayFirst := hforms _ (.tail _ (.head _))
  rw [hslashed] at hdayFirst
  exact ⟨hyear, hdayFirst, hread, hplaces, hminutes⟩

end Coercer

end RecordFilter
