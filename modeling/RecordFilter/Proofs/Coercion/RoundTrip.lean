import Mathlib.Data.List.Forall2
import RecordFilter.Proofs.Calendar.Format
import RecordFilter.Proofs.Coercion.Typing
import RecordFilter.Proofs.Schema.Selector
import RecordFilter.Proofs.Text.Blank
import RecordFilter.Proofs.Value.Text
import RecordFilter.Value.Order

/-!
# Values that are read back from their texts

The text of a coerced value is coerced to the same value again. An array is written with commas
between its items, so it matters that an item's text has a comma or a blank end only where the
operand had.
-/

namespace RecordFilter

open RecordFilter.Calendar RecordFilter.Identifier RecordFilter.Number RecordFilter.Text

/-! ## Texts that stand for an operand -/

/-- The text of a value is the operand itself, or plain. -/
def Writes (raw s : List Char) : Prop := s = raw ∨ Plain s

/-- What is read of an operand is written, and read again as the same value. -/
def ReadsBack (read : List Char → Except Reason Value) : Prop :=
  ∀ raw, Yields (read raw) fun v => ∃ s, v.chars? = some s ∧ Writes raw s ∧
    ∃ w, read s = .ok w ∧ w.same v = true

/-- How values of one kind are read and written gives that they are read back. `P` is what is known
of those that were read. -/
theorem readsBack_map {α : Type} {read : List Char → Except Reason α} {make : α → Value}
    (text : α → List Char) {P : α → Prop} (hP : ∀ raw, Yields (read raw) P)
    (htext : ∀ a, (make a).chars? = some (text a)) (hplain : ∀ a, Plain (text a))
    (hread : ∀ a, P a → ∃ b, read (text a) = .ok b ∧ (make b).same (make a) = true) :
    ReadsBack fun s => (read s).map make := by
  intro raw
  refine (hP raw).map fun a ha => ⟨text a, htext a, .inr (hplain a), ?_⟩
  obtain ⟨b, hb, hsame⟩ := hread a ha
  exact ⟨make b, congrArg (Except.map make) hb, hsame⟩

theorem readsBack_map_eq {α : Type} {read : List Char → Except Reason α} {make : α → Value}
    (text : α → List Char) {P : α → Prop} (hP : ∀ raw, Yields (read raw) P)
    (htext : ∀ a, (make a).chars? = some (text a)) (hplain : ∀ a, Plain (text a))
    (hread : ∀ a, P a → read (text a) = .ok a) (hsame : ∀ a, (make a).same (make a) = true) :
    ReadsBack fun s => (read s).map make :=
  readsBack_map text hP htext hplain fun a ha => ⟨a, hread a ha, hsame a⟩

theorem readsBack_orElse {α : Type} {read : List Char → Option α} {make : α → Value}
    {text : α → List Char} {reason : Reason} (htext : ∀ a, (make a).chars? = some (text a))
    (hplain : ∀ a, Plain (text a)) (hread : ∀ a, read (text a) = some a)
    (hsame : ∀ a, (make a).same (make a) = true) :
    ReadsBack fun s => (Strategy.orElse reason (read s)).map make :=
  readsBack_map_eq text (fun _ => yields_trivial _) htext hplain
    (fun a _ => Strategy.orElse_eq_ok_iff.mpr (hread a)) hsame

theorem readsBack_error (reason : Reason) : ReadsBack fun _ => .error reason :=
  fun _ => yields_error _

namespace Strategy

/-! ## Primitive types -/

theorem readsBack_integer {r : IntegerRange} (h0 : r.Holds 0) {make : Int → Value}
    (htext : ∀ n, (make n).chars? = some (signedDecimal n))
    (hsame : ∀ n, (make n).same (make n) = true) :
    ReadsBack fun s => (readInteger r s).map make := by
  refine readsBack_map_eq signedDecimal (P := r.Holds) (fun raw => (r.holds_read h0 raw).mapError)
    htext plain_signedDecimal (fun n hn => ?_) hsame
  rw [readInteger, r.read_signedDecimal h0 hn]
  rfl

theorem readsBack_natural {r : IntegerRange} (h0 : r.Holds 0) (hleast : r.least = 0) :
    ReadsBack fun s => (readInteger r s).map fun n => .uint n.toNat := by
  refine readsBack_map_eq (fun n => decimal n.toNat) (P := r.Holds)
    (fun raw => (r.holds_read h0 raw).mapError) (fun _ => rfl) (fun n => plain_decimal n.toNat)
    (fun n hn => ?_) (fun n => by simp [Value.same])
  have hnat : (n.toNat : Int) = n := by
    have := hn.1
    omega
  have hholds : r.Holds (n.toNat : Int) := by rwa [hnat]
  rw [readInteger, r.read_of_digitsFrom h0 hholds (decimal_ne_nil _) (digitsFrom_decimal _), hnat]
  rfl

theorem readYear_yearText {year : Int} (h : -9999 ≤ year ∧ year ≤ 9999) :
    readYear (Date.yearText year) = .ok year := by
  have hyear : (IntegerRange.signed 32).Holds year :=
    ⟨Int.le_trans (by decide) h.1, Int.le_trans h.2 (by decide)⟩
  have htext : Date.yearText year =
      if year < 0 then '-' :: padded 4 year.natAbs else padded 4 year.natAbs := by
    unfold Date.yearText
    split <;> rfl
  rw [readYear, readInteger, htext,
    IntegerRange.read_of_natAbs (by decide) hyear (padded_ne_nil 4 _) (digitsFrom_padded 4 _)]
  exact if_pos h

theorem readsBack_year : ReadsBack fun s => (readYear s).map .year := by
  refine readsBack_map_eq Date.yearText (P := fun n => -9999 ≤ n ∧ n ≤ 9999) (fun raw => ?_)
    (fun _ => rfl) Date.plain_yearText (fun _ => readYear_yearText) (fun n => by simp [Value.same])
  refine (yields_trivial _).bind fun n _ => ?_
  split
  · exact yields_ok (by assumption)
  · exact yields_error _

theorem readsBack_bool : ReadsBack fun s => (orElse .trueOrFalse (readBool? s)).map .bool := by
  refine readsBack_map_eq (fun b => if b then ['t', 'r', 'u', 'e'] else ['f', 'a', 'l', 's', 'e'])
    (fun _ => yields_trivial _) (fun _ => rfl) ?_ ?_ ?_
  · rintro (_ | _) <;> exact ⟨by simp, by decide⟩
  · rintro (_ | _) - <;> rfl
  · rintro (_ | _) <;> rfl

theorem readsBack_primitive {t : Scalar} (h32 : t ≠ .f32) (h64 : t ≠ .f64) :
    ReadsBack (readPrimitive t) := by
  cases t with
  | text =>
    refine fun raw => yields_ok ⟨raw, ?_, .inl rfl, _, rfl, ?_⟩
    · exact congrArg some String.toList_ofList
    · simp [Value.same]
  | char =>
    intro raw
    unfold readPrimitive
    dsimp only
    split
    · exact yields_ok ⟨_, rfl, .inl rfl, _, rfl, by simp [Value.same]⟩
    · exact yields_error _
  | bool => exact readsBack_bool
  | i8 | i16 | i32 | i64 | i128 =>
    exact readsBack_integer (by decide) (fun _ => rfl) (fun n => by simp [Value.same])
  | u8 | u16 | u32 | u64 => exact readsBack_natural (by decide) rfl
  | f32 => exact absurd rfl h32
  | f64 => exact absurd rfl h64
  | decimal =>
    refine readsBack_map Decimal.text (fun _ => yields_trivial _) (fun _ => rfl)
      Decimal.plain_text fun x _ => ?_
    obtain ⟨y, hread, hcompare⟩ := x.read_text
    exact ⟨y, orElse_eq_ok_iff.mpr hread, by simp [Value.same, hcompare]⟩
  | bigint =>
    refine readsBack_map_eq signedDecimal (fun _ => yields_trivial _) (fun _ => rfl)
      plain_signedDecimal (fun n _ => ?_) (fun n => by simp [Value.same])
    rw [readBig_signedDecimal]
    rfl
  | year => exact readsBack_year
  | _ => exact readsBack_error _

/-! ## Temporal types -/

theorem readsBack_temporal {t : Scalar} (hinstant : t ≠ .instant) (hduration : t ≠ .duration) :
    ReadsBack (readTemporal t) := by
  cases t with
  | date =>
    exact readsBack_orElse (fun _ => rfl) Date.plain_text readDate?_text
      (fun d => by simp [Value.same])
  | datetime =>
    exact readsBack_orElse (fun _ => rfl) DateTime.plain_text readDateTime?_text
      (fun t => by simp [Value.same])
  | time =>
    exact readsBack_orElse (fun _ => rfl) TimeOfDay.plain_text readTime?_text
      (fun t => by simp [Value.same])
  | instant => exact absurd rfl hinstant
  | duration => exact absurd rfl hduration
  | period =>
    refine readsBack_map_eq Period.text (fun raw => (Period.inRange_read raw).mapError)
      (fun _ => rfl) Period.plain_text (fun p hp => ?_) (fun p => by simp [Value.same])
    rw [Period.read_text hp]
    rfl
  | _ => exact readsBack_error _

/-! ## Identifiers and bytes -/

theorem readsBack_identifier (t : Scalar) : ReadsBack (readIdentifier t) := by
  cases t with
  | uuid =>
    exact readsBack_orElse (fun _ => rfl) Uuid.plain_text Uuid.read_text
      (fun id => by simp [Value.same])
  | ulid =>
    refine readsBack_map_eq Ulid.text (fun raw => (Ulid.isFitted_read raw).mapError)
      (fun _ => rfl) Ulid.plain_text (fun id hid => ?_) (fun id => by simp [Value.same])
    rw [Ulid.read_text hid]
    rfl
  | objectId =>
    refine readsBack_map_eq ObjectId.text (fun _ => yields_trivial _) (fun _ => rfl)
      ObjectId.plain_text (fun id _ => ?_) (fun id => by simp [Value.same])
    rw [ObjectId.read_text]
    rfl
  | bytes =>
    refine fun raw => yields_ok ⟨raw, ?_, .inl rfl, _, rfl, by simp [Value.same]⟩
    exact congrArg some (readable_utf8 raw)
  | _ => exact readsBack_error _

end Strategy

/-! ## Types whose values are read back -/

/-- All scalars but binary fractions, instants and durations. -/
def Scalar.isExact : Scalar → Bool
  | .f32 | .f64 | .instant | .duration => false
  | _ => true

/-- Exact scalars, enumerations, and arrays of these at any depth. -/
def FieldType.isExact : FieldType → Bool
  | scalar t => t.isExact
  | array element => element.isExact
  | enumeration _ => true
  | custom _ | record _ => false

theorem Strategy.readsBack_read {s : Strategy} (hs : s ∈ builtIn) {t : FieldType}
    (ht : t.isExact = true) : ReadsBack fun raw => s.read t (String.ofList raw) := by
  cases s with
  | own o => simp [builtIn] at hs
  | primitive =>
    cases t with
    | scalar t =>
      have hread := readsBack_primitive (t := t) (by rintro rfl; cases ht) (by rintro rfl; cases ht)
      simpa [read] using hread
    | _ => exact readsBack_error _
  | temporal =>
    cases t with
    | scalar t =>
      have hread := readsBack_temporal (t := t) (by rintro rfl; cases ht) (by rintro rfl; cases ht)
      simpa [read] using hread
    | _ => exact readsBack_error _
  | identifier =>
    cases t with
    | scalar t => simpa [read] using readsBack_identifier t
    | _ => exact readsBack_error _
  | array => exact readsBack_error _
  | enumeration =>
    cases t with
    | enumeration m =>
      -- The text of a member is its name, which is the operand.
      intro raw
      refine (yields_self _).map fun member hmember => ?_
      have hfind := orElse_eq_ok_iff.mp hmember
      have hname : member.name = String.ofList raw := by simpa using List.find?_some hfind
      refine ⟨raw, ?_, .inl rfl, .enumMember (m.valueOf member), ?_, by simp [Value.same]⟩
      · simp [Value.chars?, Value.plainChars?, EnumModel.valueOf, hname]
      · simp only [read]
        rw [hmember]
        rfl
    | _ => exact readsBack_error _
  | constructor =>
    cases t with
    | custom c => cases ht
    | _ => exact readsBack_error _

/-! ## Operands -/

/-- The text can stand for the operand among the parts of an array: its ends are not blank, it has a
comma only if the operand has, and it is empty only for a blank operand. -/
structure StandsFor (raw s : List Char) : Prop where
  tidy : Tidy s
  noComma : ',' ∉ raw → ',' ∉ s
  blank : s = [] → trimChars raw = []

theorem Text.Plain.tidy {s : List Char} (h : Plain s) : Tidy s :=
  tidy_of_forall fun c hc => by simpa using (Bool.and_eq_true_iff.mp (h.isPlain hc)).1

theorem Writes.standsFor {raw s : List Char} (h : Writes raw s) (htidy : Tidy raw) :
    StandsFor raw s := by
  rcases h with rfl | h
  · exact ⟨htidy, id, fun hnil => htidy.trimChars_eq.trans hnil⟩
  · refine ⟨h.tidy, fun _ hmem => ?_, fun hnil => absurd hnil h.ne_nil⟩
    exact absurd (h.isPlain hmem) (by decide)

/-- What the operand is converted to is written, and converted again to the same value. -/
def Restores (convert : String → Except CoercionError Value) (raw : List Char) : Prop :=
  Yields (convert (String.ofList raw)) fun v => ∃ s, v.chars? = some s ∧ StandsFor raw s ∧
    ∃ w, convert (String.ofList s) = .ok w ∧ w.same v = true

open Coercer (unlessBlank)

variable {convert : String → Except CoercionError Value}

theorem unlessBlank_of_blank {raw : List Char} (h : trimChars raw = []) :
    unlessBlank convert (String.ofList raw) = .ok .null := by
  simp [unlessBlank, trim, h]

theorem unlessBlank_of_not_blank {raw : List Char} (h : trimChars raw ≠ []) :
    unlessBlank convert (String.ofList raw) = convert (String.ofList (trimChars raw)) := by
  simp [unlessBlank, trim, h]

theorem restores_unlessBlank (h : ∀ raw, Tidy raw → Restores convert raw) (raw : List Char) :
    Restores (unlessBlank convert) raw := by
  intro v hv
  by_cases hblank : trimChars raw = []
  · rw [unlessBlank_of_blank hblank] at hv
    cases hv
    exact ⟨[], rfl, ⟨tidy_nil, fun _ => List.not_mem_nil, fun _ => hblank⟩, .null,
      unlessBlank_of_blank rfl, by simp [Value.same]⟩
  · rw [unlessBlank_of_not_blank hblank] at hv
    have htidy := tidy_trimChars raw
    obtain ⟨s, htext, hs, w, hw, hsame⟩ := h _ htidy v hv
    have hnil : s ≠ [] := fun hnil => hblank (htidy.trimChars_eq.symm.trans (hs.blank hnil))
    refine ⟨s, htext, ⟨hs.tidy, fun hraw => hs.noComma fun hmem => ?_, fun h => absurd h hnil⟩,
      w, ?_, hsame⟩
    · exact hraw (mem_of_mem_trimChars hmem)
    · rw [unlessBlank_of_not_blank (by rwa [hs.tidy.trimChars_eq]), hs.tidy.trimChars_eq, hw]

/-! ## Arrays -/

theorem restores_mapM (h : ∀ raw, Restores convert raw) (parts : List (List Char)) :
    Yields ((parts.map String.ofList).mapM convert) fun items =>
      ∃ texts, Value.itemChars? items = some texts ∧ List.Forall₂ StandsFor parts texts ∧
        ∃ items', (texts.map String.ofList).mapM convert = .ok items' ∧
          Value.sameItems items' items = true := by
  induction parts with
  | nil => exact yields_ok ⟨[], rfl, .nil, [], rfl, rfl⟩
  | cons part rest ih =>
    rw [List.map_cons, List.mapM_cons]
    refine (h part).bind fun v ⟨s, htext, hs, w, hw, hsame⟩ => ih.bind fun items hitems => ?_
    obtain ⟨texts, htexts, hrest, items', hitems', hsame'⟩ := hitems
    refine yields_ok ⟨s :: texts, ?_, .cons hs hrest, w :: items', ?_, ?_⟩
    · rw [Value.itemChars?, htext, htexts]
      rfl
    · rw [List.map_cons, List.mapM_cons, hw, hitems']
      rfl
    · rw [Value.sameItems, hsame, hsame']
      rfl

theorem StandsFor.forall_noComma {parts texts : List (List Char)}
    (hparts : ∀ part ∈ parts, ',' ∉ part) (h : List.Forall₂ StandsFor parts texts) :
    ∀ s ∈ texts, ',' ∉ s := by
  induction h with
  | nil => exact nofun
  | cons hs _ ih =>
    obtain ⟨hpart, hrest⟩ := List.forall_mem_cons.mp hparts
    exact List.forall_mem_cons.mpr ⟨hs.noComma hpart, ih hrest⟩

theorem StandsFor.forall_tidy {parts texts : List (List Char)}
    (h : List.Forall₂ StandsFor parts texts) : ∀ s ∈ texts, Tidy s := by
  induction h with
  | nil => exact nofun
  | cons hs _ ih => exact List.forall_mem_cons.mpr ⟨hs.tidy, ih⟩

theorem standsFor_intercalate {raw : List Char} {texts : List (List Char)}
    (h : List.Forall₂ StandsFor (raw.splitOn ',') texts) :
    StandsFor raw (List.intercalate [','] texts) := by
  refine ⟨tidy_intercalate (by decide) (StandsFor.forall_tidy h), ?_, ?_⟩
  all_goals
    have hjoin : List.intercalate [','] (raw.splitOn ',') = raw := List.intercalate_splitOn ','
    have hnil := List.splitOn_ne_nil ',' raw
    generalize raw.splitOn ',' = parts at h hjoin hnil
    subst hjoin
    -- A single part decides; where there are more, both texts have commas and are not blank.
    cases h with
    | nil => exact absurd rfl hnil
    | cons hs hrest =>
      cases hrest with
      | nil =>
        rw [List.intercalate_singleton, List.intercalate_singleton]
        first | exact hs.noComma | exact hs.blank
      | cons _ _ => simp [List.intercalate_cons_cons]

theorem splitOn_intercalate {raw : List Char} {texts : List (List Char)}
    (h : List.Forall₂ StandsFor (raw.splitOn ',') texts) :
    (List.intercalate [','] texts).splitOn ',' = texts := by
  refine List.splitOn_intercalate ',' ?_ ?_
  · exact StandsFor.forall_noComma (fun part hpart => not_mem_of_mem_splitOn hpart) h
  · rintro rfl
    exact List.splitOn_ne_nil ',' raw (List.forall₂_nil_right_iff.mp h)

theorem Strategy.restores_convert {s : Strategy} (hs : s ∈ builtIn) {t : FieldType}
    (ht : t.isExact = true) {element : String → Except CoercionError Value}
    (helement : ∀ e, t = .array e → ∀ raw, Restores element raw) {raw : List Char}
    (hraw : Tidy raw) : Restores (s.convert element t) raw := by
  unfold Restores convert
  split
  · simp [builtIn] at hs
  · rename_i e
    have hparts : ∀ s : List Char,
        arrayParts (String.ofList s) = (s.splitOn ',').map String.ofList :=
      fun s => by rw [arrayParts, String.toList_ofList]
    rw [hparts]
    refine (restores_mapM (helement e rfl) (raw.splitOn ',')).map fun items hitems => ?_
    obtain ⟨texts, htexts, hstands, items', hitems', hsame⟩ := hitems
    refine ⟨List.intercalate [','] texts, ?_, standsFor_intercalate hstands, .list items', ?_, ?_⟩
    · rw [Value.chars?, htexts]
      rfl
    · rw [hparts, splitOn_intercalate hstands, hitems']
      rfl
    · rw [Value.same, hsame]
  · have hread := readsBack_read hs ht raw
    refine (hread.mono fun v hback => ?_).mapError
    obtain ⟨text, htext, hwrites, w, hw, hsame⟩ := hback
    exact ⟨text, htext, hwrites.standsFor hraw, w, congrArg (Except.mapError _) hw, hsame⟩

/-! ## Coercers -/

namespace Coercer

theorem convert_array (c : Coercer) (e : FieldType) :
    c.convert (.array e) = c.convertRouted (unlessBlank (c.convert e)) (.array e) := by
  funext raw
  rw [convert]

theorem convert_of_ne_array (c : Coercer) {t : FieldType} (h : ∀ e, t ≠ .array e) :
    c.convert t = c.convertRouted (fun _ => .ok .null) t := by
  funext raw
  rw [convert]
  exact h

theorem coerce_eq_ok_iff {c : Coercer} {t : FieldType} {raw : String} {v : TypedValue} :
    c.coerce t raw = .ok v ↔ unlessBlank (c.convert t) raw = .ok v.value ∧ v.declared = t := by
  unfold coerce
  cases unlessBlank (c.convert t) raw with
  | error e => exact ⟨nofun, nofun⟩
  | ok x =>
    constructor
    · rintro h
      cases h
      exact ⟨rfl, rfl⟩
    · rintro ⟨h, rfl⟩
      cases h
      rfl

variable {c : Coercer} (hc : c.IsStandard) {t : FieldType}

include hc

theorem IsStandard.restores_convertRouted (ht : t.isExact = true)
    {element : String → Except CoercionError Value}
    (helement : ∀ e, t = .array e → ∀ raw, Restores element raw) {raw : List Char}
    (hraw : Tidy raw) : Restores (c.convertRouted element t) raw := by
  unfold Restores convertRouted
  split
  · rename_i s hroute
    exact Strategy.restores_convert (hc.mem_builtIn hroute) ht helement hraw
  · exact yields_error _

theorem IsStandard.restores_convert (ht : t.isExact = true) {raw : List Char} (hraw : Tidy raw) :
    Restores (c.convert t) raw := by
  induction t generalizing raw with
  | array e ih =>
    rw [convert_array]
    refine hc.restores_convertRouted ht (fun e' he' => ?_) hraw
    cases he'
    exact restores_unlessBlank fun _ => ih ht
  | _ =>
    rw [convert_of_ne_array c (by nofun)]
    exact hc.restores_convertRouted ht nofun hraw

/-- The text of a coerced value is coerced to the same value. -/
theorem coerce_text (ht : t.isExact = true) {raw : String} {v : TypedValue}
    (h : c.coerce t raw = .ok v) :
    ∃ s w, v.value.text? = some s ∧ c.coerce t s = .ok w ∧ w.declared = v.declared ∧
      w.value.same v.value = true := by
  have hrestores := restores_unlessBlank (fun _ => hc.restores_convert ht) raw.toList
  rw [Restores, String.ofList_toList] at hrestores
  obtain ⟨hvalue, hdeclared⟩ := coerce_eq_ok_iff.mp h
  obtain ⟨s, htext, -, w, hw, hsame⟩ := hrestores v.value hvalue
  refine ⟨String.ofList s, ⟨w, t⟩, ?_, coerce_eq_ok_iff.mpr ⟨hw, rfl⟩, hdeclared.symm, hsame⟩
  rw [Value.text?, htext]
  rfl

omit hc

/-- Dates in two formats, and nothing between them. -/
def feasts : TypedValue :=
  ⟨.list [.date ⟨-5, 12, 24, by decide⟩, .null, .date ⟨2024, 2, 29, by decide⟩],
    .array (.scalar .date)⟩

theorem feasts_restored :
    standard.IsStandard ∧ FieldType.isExact (.array (.scalar .date)) = true ∧
      standard.coerce (.array (.scalar .date)) " 24/12/-0005,, 2024-02-29" = .ok feasts ∧
        ∃ s w, feasts.value.text? = some s ∧ standard.coerce (.array (.scalar .date)) s = .ok w ∧
          w.declared = feasts.declared ∧ w.value.same feasts.value = true := by
  have hcoerce : standard.coerce (.array (.scalar .date)) " 24/12/-0005,, 2024-02-29" =
      .ok feasts := rfl
  exact ⟨isStandard_standard, rfl, hcoerce, coerce_text isStandard_standard rfl hcoerce⟩

end Coercer

end RecordFilter
