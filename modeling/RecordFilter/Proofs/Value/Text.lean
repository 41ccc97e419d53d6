import RecordFilter.Proofs.Calendar.Period
import RecordFilter.Proofs.Identifier.Words
import RecordFilter.Proofs.Number.Decimal
import RecordFilter.Text.Blank
import RecordFilter.Value.Basic

/-!
# The texts of numbers, times and identifiers

They are not empty, and have neither blanks nor commas in them. So they stand as they are among the
parts of an array.
-/

namespace RecordFilter

open RecordFilter.Calendar RecordFilter.Identifier RecordFilter.Number RecordFilter.Text

namespace Text

/-- Neither blank nor a comma. -/
def isPlain (c : Char) : Bool := !isBlank c && c != ','

/-- Some characters, and all of them plain. -/
structure Plain (s : List Char) : Prop where
  ne_nil : s ≠ []
  all : s.all isPlain = true

theorem Plain.isPlain {s : List Char} (h : Plain s) {c : Char} (hc : c ∈ s) : isPlain c = true :=
  List.all_eq_true.mp h.all c hc

theorem Plain.cons {c : Char} {s : List Char} (hc : Text.isPlain c = true) (hs : Plain s) :
    Plain (c :: s) where
  ne_nil := List.cons_ne_nil c s
  all := by rw [List.all_cons, hc, hs.all]; rfl

theorem Plain.append {a b : List Char} (ha : Plain a) (hb : Plain b) : Plain (a ++ b) where
  ne_nil h := ha.ne_nil (List.append_eq_nil_iff.mp h).1
  all := by rw [List.all_append, ha.all, hb.all]; rfl

theorem Plain.append_cons {a b : List Char} {c : Char} (ha : Plain a)
    (hc : Text.isPlain c = true) (hb : Plain b) : Plain (a ++ c :: b) :=
  ha.append (hb.cons hc)

theorem plain_singleton {c : Char} (hc : isPlain c = true) : Plain [c] where
  ne_nil := List.cons_ne_nil c []
  all := by rw [List.all_cons, hc]; rfl

theorem plain_intercalate {c : Char} (hc : isPlain c = true) {parts : List (List Char)}
    (hnil : parts ≠ []) (h : ∀ part ∈ parts, Plain part) :
    Plain (List.intercalate [c] parts) := by
  induction parts with
  | nil => exact absurd rfl hnil
  | cons part rest ih =>
    obtain ⟨hpart, hrest⟩ := List.forall_mem_cons.mp h
    cases rest with
    | nil =>
      rw [List.intercalate_singleton]
      exact hpart
    | cons next rest =>
      rw [List.intercalate_cons_cons, List.append_assoc]
      exact hpart.append_cons hc (ih (List.cons_ne_nil next rest) hrest)

theorem isPlain_of_isDigit {c : Char} (h : isDigit c = true) : isPlain c = true := by
  obtain ⟨hlow, hhigh⟩ := toNat_of_isDigit h
  have hblank : isBlank c = false := by
    simp only [isBlank, Bool.or_eq_false_iff, Bool.and_eq_false_iff, decide_eq_false_iff_not,
      beq_eq_false_iff_ne]
    omega
  have hcomma : c ≠ ',' := by
    rintro rfl
    revert h
    decide
  simp [isPlain, hblank, hcomma]

theorem plain_of_forall_isDigit {s : List Char} (hnil : s ≠ [])
    (h : ∀ c ∈ s, isDigit c = true) : Plain s :=
  ⟨hnil, List.all_eq_true.mpr fun c hc => isPlain_of_isDigit (h c hc)⟩

theorem plain_decimal (n : Nat) : Plain (decimal n) :=
  plain_of_forall_isDigit (decimal_ne_nil n) fun _ => isDigit_of_mem_decimal

theorem plain_padded (width n : Nat) : Plain (padded width n) :=
  plain_of_forall_isDigit (padded_ne_nil width n) fun _ => isDigit_of_mem_padded

theorem plain_signedDecimal (n : Int) : Plain (signedDecimal n) := by
  unfold signedDecimal
  split
  · exact (plain_decimal _).cons rfl
  · exact plain_decimal _

end Text

theorem Number.Decimal.plain_text (x : Decimal) : Plain x.text := by
  obtain ⟨whole, places, htext, hnil, hplaces, hdigits⟩ := x.text_eq
  have hall : ∀ c ∈ whole ++ places, isDigit c = true := by
    rw [hdigits]
    exact fun c hc => isDigit_of_mem_padded hc
  obtain ⟨hwhole, hbehind⟩ := List.forall_mem_append.mp hall
  have hfront : Plain ((if x.negative then ['-'] else []) ++ whole) := by
    split
    · exact (plain_of_forall_isDigit hnil hwhole).cons rfl
    · exact plain_of_forall_isDigit hnil hwhole
  rw [htext]
  by_cases hscale : x.scale = 0
  · rw [if_pos hscale, List.append_nil]
    exact hfront
  · have hpoint : places ≠ [] := fun h => hscale (by rw [← hplaces, h]; rfl)
    rw [if_neg hscale]
    exact hfront.append_cons rfl (plain_of_forall_isDigit hpoint hbehind)

namespace Calendar

theorem Date.plain_yearText (year : Int) : Plain (yearText year) := by
  unfold yearText
  split
  · exact (plain_padded 4 _).cons rfl
  · exact plain_padded 4 _

theorem Date.plain_text (d : Date) : Plain d.text :=
  ((plain_yearText d.year).append_cons rfl (plain_padded 2 d.month)).append_cons rfl
    (plain_padded 2 d.day)

theorem TimeOfDay.plain_text (t : TimeOfDay) : Plain t.text := by
  have hclock := ((plain_padded 2 t.hour).append_cons (c := ':') rfl
    (plain_padded 2 t.minute)).append_cons (c := ':') rfl (plain_padded 2 t.second)
  unfold text
  split
  · rw [List.append_nil]
    exact hclock
  · exact hclock.append_cons rfl (plain_padded 9 t.nanosecond)

theorem DateTime.plain_text (t : DateTime) : Plain t.text :=
  t.date.plain_text.append_cons rfl t.time.plain_text

theorem Period.plain_text (p : Period) : Plain p.text :=
  ((((plain_signedDecimal p.years).cons rfl).append_cons rfl
    (plain_signedDecimal p.months)).append_cons rfl (plain_signedDecimal p.days)).append
      (plain_singleton rfl)

end Calendar

namespace Identifier

theorem Word.plain_text {base length : Nat} {alphabet : List Char}
    (hbase : base ≤ alphabet.length) (halphabet : alphabet.all isPlain = true)
    (hlength : 0 < length) (w : Word base length) : Plain (text alphabet w) where
  ne_nil := List.length_pos_iff.mp (by rw [length_text]; exact hlength)
  all := List.all_eq_true.mpr fun _ hc => List.all_eq_true.mp halphabet _ (mem_of_mem_text hbase hc)

theorem ObjectId.plain_text (id : ObjectId) : Plain (text id) :=
  Word.plain_text (Nat.le_refl 16) (by decide) (by decide) id

theorem Ulid.plain_text (id : Ulid) : Plain (text id) :=
  Word.plain_text (Nat.le_refl 32) (by decide) (by decide) id

theorem Uuid.plain_text (id : Uuid) : Plain (text id) := by
  have hlength : groupLengths.sum ≤ (Word.text hexAlphabet id).length := by
    rw [Word.length_text]
    decide
  refine plain_intercalate rfl (List.cons_ne_nil _ _) fun piece hpiece => ⟨?_, ?_⟩
  · have hmem : piece.length ∈ groupLengths := by
      rw [← map_length_cut hlength]
      exact List.mem_map_of_mem hpiece
    rintro rfl
    revert hmem
    decide
  · have hall : hexAlphabet.all isPlain = true := by decide
    refine List.all_eq_true.mpr fun c hc => List.all_eq_true.mp hall c ?_
    exact mem_hexAlphabet (mem_of_mem_cut hpiece hc)

end Identifier

end RecordFilter
