import Mathlib.Data.List.Nodup
import RecordFilter.Proofs.Calendar.Amount

/-!
# The written form of amounts

An amount of time is an optional sign, the letter `P`, and components, each of which may be left
out. The reader finds the components of a text just where the text is put together in this way.
-/

namespace RecordFilter.Calendar

open RecordFilter.Text RecordFilter.Number
open RecordFilter.Number.IntegerRange (withSign)

/-! ## Signs and whole numbers -/

/-- A sign that may be left out, and whether it is a minus sign. -/
inductive IsSign : Bool → List Char → Prop
  | none : IsSign false []
  | plus : IsSign false ['+']
  | minus : IsSign true ['-']

/-- An optional sign and digits, which write an integer of `bits` bits. -/
inductive IsWhole (bits : Nat) : List Char → Int → Prop
  | mk {negative : Bool} {sign digits : List Char} {n : Nat} (hsign : IsSign negative sign)
      (hdigits : natural? digits = some n)
      (hholds : (IntegerRange.signed bits).Holds (withSign negative n)) :
      IsWhole bits (sign ++ digits) (withSign negative n)

theorem natural?_eq_some_iff {s : List Char} {n : Nat} :
    natural? s = some n ↔ s ≠ [] ∧ digitsFrom 0 s = some n := by
  unfold natural?
  split
  · rename_i hnil
    exact ⟨nofun, fun h => absurd (List.isEmpty_iff.mp hnil) h.1⟩
  · rename_i hnil
    exact ⟨fun h => ⟨mt List.isEmpty_iff.mpr hnil, h⟩, And.right⟩

theorem read_signed_eq_ok_iff {bits : Nat} {s : List Char} {n : Int} :
    (IntegerRange.signed bits).read s = .ok n ↔ IsWhole bits s n := by
  have h0 := IntegerRange.holds_signed_zero bits
  have hleast : (IntegerRange.signed bits).least < 0 :=
    Int.neg_neg_of_pos (Int.pow_pos (by decide))
  have hread : ∀ {negative : Bool} {sign digits : List Char}, IsSign negative sign → digits ≠ [] →
      (IntegerRange.signed bits).readDigits negative 0 digits = .ok n →
        IsWhole bits (sign ++ digits) n := by
    intro negative sign digits hsign hnil h
    have hzero : withSign negative 0 = 0 := by cases negative <;> rfl
    rw [← hzero] at h
    obtain ⟨m, hm, rfl⟩ := IntegerRange.digitsFrom_of_readDigits h
    rw [hzero] at h
    exact .mk hsign (natural?_eq_some_iff.mpr ⟨hnil, hm⟩) (IntegerRange.holds_of_readDigits h0 h)
  constructor
  · intro h
    unfold IntegerRange.read at h
    split at h
    · cases h
    · cases h
    · cases h
    · rename_i hrest
      exact hread .plus hrest h
    · rename_i hrest
      rw [if_pos hleast] at h
      exact hread .minus hrest h
    · rename_i hnil _ _ _ _
      exact hread .none hnil h
  · rintro ⟨hsign, hdigits, hholds⟩
    obtain ⟨hnil, hdigits⟩ := natural?_eq_some_iff.mp hdigits
    cases hsign with
    | none => exact IntegerRange.read_of_digitsFrom h0 hholds hnil hdigits
    | plus =>
      rw [List.singleton_append, IntegerRange.read]
      · exact IntegerRange.readDigits_of_digitsFrom false h0 hholds hdigits
      · exact hnil
    | minus => exact IntegerRange.read_minus_of_digitsFrom h0 hleast hholds hnil hdigits

theorem wholeNumber_eq_ok_iff {bits : Nat} {s : List Char} {n : Int} :
    wholeNumber bits s = .ok n ↔ IsWhole bits s n := by
  rw [← read_signed_eq_ok_iff, wholeNumber]
  cases (IntegerRange.signed bits).read s with
  | ok m => simp only [Except.ok.injEq]
  | error e => simp only [reduceCtorEq]

theorem IsSign.isAlpha {negative : Bool} {sign : List Char} (h : IsSign negative sign) :
    ∀ c ∈ sign, c.isAlpha = false := by
  cases h with
  | none => exact nofun
  | plus | minus => exact List.forall_mem_singleton.mpr rfl

/-- What a number in front of a unit is: a text that is not empty and has no letters. -/
structure IsLetterless (s : List Char) : Prop where
  ne_nil : s ≠ []
  isAlpha : ∀ c ∈ s, c.isAlpha = false

theorem IsWhole.isLetterless {bits : Nat} {s : List Char} {n : Int} (h : IsWhole bits s n) :
    IsLetterless s := by
  obtain ⟨hsign, hdigits, -⟩ := h
  obtain ⟨hnil, hdigits⟩ := natural?_eq_some_iff.mp hdigits
  refine ⟨List.append_ne_nil_of_right_ne_nil _ hnil, List.forall_mem_append.mpr ⟨hsign.isAlpha, ?_⟩⟩
  exact fun c hc => isAlpha_of_isDigit (isDigit_of_digitsFrom hdigits c hc)

/-! ## Components -/

/-- For each of the units in their order, the text has something that `number` accepts for it and
then the letter of the unit, a capital or a small one, or it has nothing. -/
inductive Parts {α : Type} (number : Char → List Char → α → Prop) :
    List Char → List Char → List (Option α) → Prop
  | nil : Parts number [] [] []
  | absent {unit : Char} {units s : List Char} {values : List (Option α)}
      (h : Parts number units s values) : Parts number (unit :: units) s (none :: values)
  | present {unit letter : Char} {units digits s : List Char} {a : α} {values : List (Option α)}
      (hnumber : number unit digits a) (hletter : letter.toUpper = unit)
      (h : Parts number units s values) :
      Parts number (unit :: units) (digits ++ letter :: s) (some a :: values)

/-- What stands in front of the letter of a unit, as a component. -/
def IsComponent (unit : Char) (s : List Char) (c : Component) : Prop :=
  IsLetterless s ∧ c = ⟨s, unit⟩

/-- The units of an amount are different capitals. -/
structure AreUnits (units : List Char) : Prop where
  nodup : units.Nodup
  isUpper : units.all Char.isUpper = true

theorem isAlpha_of_toUpper {c unit : Char} (h : c.toUpper = unit) (hunit : unit.isUpper = true) :
    c.isAlpha = true := by
  unfold Char.toUpper at h
  split at h
  · rename_i hlower
    have hsmall : c.isLower = true :=
      Bool.and_eq_true_iff.mpr ⟨decide_eq_true hlower.1, decide_eq_true hlower.2⟩
    exact Bool.or_eq_true_iff.mpr (.inr hsmall)
  · rw [h]
    exact Bool.or_eq_true_iff.mpr (.inl hunit)

variable {units s : List Char}

section

variable {α : Type} {number : Char → List Char → α → Prop} {values : List (Option α)}

theorem parts_nil (units : List Char) : Parts number units [] (units.map fun _ => none) := by
  induction units with
  | nil => exact .nil
  | cons unit units ih => exact .absent ih

theorem Parts.length_eq (h : Parts number units s values) : values.length = units.length := by
  induction h with
  | nil => rfl
  | absent _ ih | present _ _ _ ih => exact congrArg Nat.succ ih

theorem Parts.exists_number (h : Parts number units s values) {a : α} (ha : some a ∈ values) :
    ∃ unit ∈ units, ∃ digits, number unit digits a := by
  induction h with
  | nil => cases ha
  | absent _ ih =>
    obtain ⟨unit, hunit, hnumber⟩ := ih (by simpa using ha)
    exact ⟨unit, List.mem_cons_of_mem _ hunit, hnumber⟩
  | present hnumber _ _ ih =>
    rcases List.mem_cons.mp ha with heq | ha
    · cases heq
      exact ⟨_, List.mem_cons_self, _, hnumber⟩
    · obtain ⟨unit, hunit, hnumber⟩ := ih ha
      exact ⟨unit, List.mem_cons_of_mem _ hunit, hnumber⟩

theorem Parts.of_drop {k : Nat} (h : Parts number (units.drop k) s values) :
    ∃ values', Parts number units s values' ∧ values'.filterMap id = values.filterMap id := by
  induction k generalizing units with
  | zero => exact ⟨values, h, rfl⟩
  | succ k ih =>
    cases units with
    | nil => exact ⟨values, h, rfl⟩
    | cons unit units =>
      obtain ⟨values', hparts, hvalues⟩ := ih h
      exact ⟨none :: values', .absent hparts, hvalues⟩

theorem Parts.filterMap_eq_nil_iff (h : Parts number units s values) :
    values.filterMap id = [] ↔ s = [] := by
  induction h with
  | nil => simp
  | absent _ ih => exact ih
  | present => simp

end

theorem exists_parts_of_readComponents {used : Nat} {digits s : List Char} {cs : List Component}
    (hdigits : ∀ c ∈ digits, c.isAlpha = false)
    (h : readComponents units used digits s = .ok cs) :
    ∃ values, Parts IsComponent (units.drop used) (digits ++ s) values ∧
      values.filterMap id = cs := by
  -- Induction on what is left of the text. `digits` are collected in front of it for the next unit.
  induction s generalizing used digits cs with
  | nil =>
    rw [readComponents] at h
    split at h
    · rename_i hnil
      cases h
      rw [List.isEmpty_iff.mp hnil]
      exact ⟨_, parts_nil _, by simp⟩
    · cases h
  | cons c rest ih =>
    rw [readComponents] at h
    split at h
    · split at h
      · cases h
      · rename_i rank hrank
        split at h
        · cases h
        · rename_i hused
          split at h
          · cases h
          · rename_i hnil
            obtain ⟨cs', hcs', rfl⟩ := map_eq_ok_iff.mp h
            obtain ⟨values, hparts, rfl⟩ := ih (List.forall_mem_nil _) hcs'
            obtain ⟨hlt, hunit, -⟩ := List.idxOf?_eq_some_iff.mp hrank
            have hdrop : units.drop rank = c.toUpper :: units.drop (rank + 1) := by
              rw [List.drop_eq_getElem_cons hlt, hunit]
            have hcomponent : IsComponent c.toUpper digits ⟨digits, c.toUpper⟩ :=
              ⟨⟨mt List.isEmpty_iff.mpr hnil, hdigits⟩, rfl⟩
            have hpresent := Parts.present hcomponent rfl hparts
            -- The units from `used` up to this one are absent.
            rw [← hdrop, ← Nat.add_sub_of_le (Nat.not_lt.mp hused), ← List.drop_drop] at hpresent
            exact hpresent.of_drop
    · rename_i hc
      have hcollected : ∀ x ∈ digits ++ [c], x.isAlpha = false :=
        List.forall_mem_append.mpr ⟨hdigits, List.forall_mem_singleton.mpr (by simpa using hc)⟩
      have hparts := ih hcollected h
      rwa [List.append_assoc] at hparts

theorem readComponents_of_le {used used' : Nat} {digits s : List Char} {cs : List Component}
    (hused : used ≤ used') (h : readComponents units used' digits s = .ok cs) :
    readComponents units used digits s = .ok cs := by
  induction s generalizing digits with
  | nil => exact h
  | cons c rest ih =>
    rw [readComponents] at h ⊢
    split at h
    · rename_i hc
      rw [if_pos hc]
      split at h
      · cases h
      · rename_i rank hrank
        split at h
        · cases h
        · rename_i hrest
          rw [if_neg (by omega)]
          exact h
    · rename_i hc
      rw [if_neg hc]
      exact ih h

theorem Parts.readComponents {values : List (Option Component)} (hunits : AreUnits units)
    {used : Nat} (h : Parts IsComponent (units.drop used) s values) :
    readComponents units used [] s = .ok (values.filterMap id) := by
  -- `left` are the units that may still come. One that is absent is used up without being read.
  generalize hleft : units.drop used = left at h
  induction h generalizing used with
  | nil => rfl
  | @absent unit left s values h ih =>
    refine readComponents_of_le (Nat.le_succ used) (ih ?_)
    rw [← List.tail_drop, hleft, List.tail_cons]
  | @present unit letter left digits s a values hnumber hletter h ih =>
    obtain ⟨hdigits, rfl⟩ := hnumber
    have hlt : used < units.length := by
      have hpos := congrArg List.length hleft
      rw [List.length_drop, List.length_cons] at hpos
      omega
    have hunit : units[used] = unit := by
      rw [List.drop_eq_getElem_cons hlt] at hleft
      exact (List.cons.inj hleft).1
    have hrank : units.idxOf? letter.toUpper = some used := by
      rw [hletter, List.idxOf?_eq_some_iff]
      refine ⟨hlt, hunit, fun j hj hsame => ?_⟩
      exact absurd (hunits.nodup.getElem_inj_iff.mp (hsame.trans hunit.symm)) (Nat.ne_of_lt hj)
    have halpha : letter.isAlpha = true :=
      isAlpha_of_toUpper hletter
        (List.all_eq_true.mp hunits.isUpper unit (hunit ▸ List.getElem_mem hlt))
    rw [readComponents_component used hdigits.isAlpha hdigits.ne_nil halpha hrank (Nat.le_refl _),
      ih, hletter]
    · rfl
    · rw [← List.tail_drop, hleft, List.tail_cons]

theorem components_eq_ok_iff (hunits : AreUnits units) {cs : List Component} :
    components units s = .ok cs ↔
      ∃ values, Parts IsComponent units s values ∧ values.filterMap id = cs := by
  constructor
  · exact fun h => exists_parts_of_readComponents (List.forall_mem_nil _) h
  · rintro ⟨values, h, rfl⟩
    rw [components]
    exact Parts.readComponents hunits (by rwa [List.drop_zero])

theorem components_eq_nil_iff (hunits : AreUnits units) {cs : List Component}
    (h : components units s = .ok cs) : cs = [] ↔ s = [] := by
  obtain ⟨values, hparts, rfl⟩ := (components_eq_ok_iff hunits).mp h
  exact hparts.filterMap_eq_nil_iff

/-! ## What the components come to -/

variable {β : Type}

/-- What `b` becomes when the values of the units are put to it one after the other. -/
def putParts (put : β → Char → Int → β) (b : β) : List Char → List (Option Int) → β
  | unit :: units, some n :: values => putParts put (put b unit n) units values
  | _ :: units, none :: values => putParts put b units values
  | _, _ => b

/-- The step `f` reads just the numbers that `number` accepts, and puts them to what came before. -/
structure ReadsNumbers (units : List Char) (number : Char → List Char → Int → Prop)
    (f : β → Component → Except AmountFault β) (put : β → Char → Int → β) : Prop where
  isLetterless : ∀ unit ∈ units, ∀ s n, number unit s n → IsLetterless s
  step : ∀ unit ∈ units, ∀ b s b',
    f b ⟨s, unit⟩ = .ok b' ↔ ∃ n, number unit s n ∧ put b unit n = b'

theorem ReadsNumbers.tail {unit : Char} {number : Char → List Char → Int → Prop}
    {f : β → Component → Except AmountFault β} {put : β → Char → Int → β}
    (h : ReadsNumbers (unit :: units) number f put) : ReadsNumbers units number f put where
  isLetterless u hu := h.isLetterless u (List.mem_cons_of_mem _ hu)
  step u hu := h.step u (List.mem_cons_of_mem _ hu)

variable {number : Char → List Char → Int → Prop} {f : β → Component → Except AmountFault β}
  {put : β → Char → Int → β}

theorem Parts.numbers_of_foldlM {values : List (Option Component)}
    (h : Parts IsComponent units s values) (hf : ReadsNumbers units number f put) {b b' : β}
    (hfold : (values.filterMap id).foldlM f b = .ok b') :
    ∃ ns, Parts number units s ns ∧ putParts put b units ns = b' := by
  induction h generalizing b with
  | nil => exact ⟨[], .nil, Except.ok.inj hfold⟩
  | absent _ ih =>
    obtain ⟨ns, hns, hput⟩ := ih hf.tail hfold
    exact ⟨none :: ns, .absent hns, hput⟩
  | @present unit letter units digits s c values hcomponent hletter h ih =>
    obtain ⟨-, rfl⟩ := hcomponent
    obtain ⟨b₁, hstep, hrest⟩ := bind_eq_ok_iff.mp hfold
    obtain ⟨n, hn, rfl⟩ := (hf.step unit List.mem_cons_self _ _ _).mp hstep
    obtain ⟨ns, hns, hput⟩ := ih hf.tail hrest
    exact ⟨some n :: ns, .present hn hletter hns, hput⟩

theorem Parts.foldlM_of_numbers {ns : List (Option Int)} (h : Parts number units s ns)
    (hf : ReadsNumbers units number f put) (b : β) :
    ∃ values, Parts IsComponent units s values ∧
      (values.filterMap id).foldlM f b = .ok (putParts put b units ns) := by
  induction h generalizing b with
  | nil => exact ⟨[], .nil, rfl⟩
  | absent _ ih =>
    obtain ⟨values, hvalues, hfold⟩ := ih hf.tail b
    exact ⟨none :: values, .absent hvalues, hfold⟩
  | @present unit letter units digits s n ns hnumber hletter h ih =>
    obtain ⟨values, hvalues, hfold⟩ := ih hf.tail (put b unit n)
    have hcomponent : IsComponent unit digits ⟨digits, unit⟩ :=
      ⟨hf.isLetterless unit List.mem_cons_self digits n hnumber, rfl⟩
    refine ⟨some ⟨digits, unit⟩ :: values, .present hcomponent hletter hvalues, ?_⟩
    exact bind_eq_ok_iff.mpr
      ⟨_, (hf.step unit List.mem_cons_self _ _ _).mpr ⟨n, hnumber, rfl⟩, hfold⟩

theorem exists_foldlM_components_iff (hunits : AreUnits units)
    (hf : ReadsNumbers units number f put) {b b' : β} :
    (∃ cs, components units s = .ok cs ∧ cs.foldlM f b = .ok b') ↔
      ∃ ns, Parts number units s ns ∧ putParts put b units ns = b' := by
  constructor
  · rintro ⟨cs, hcs, hfold⟩
    obtain ⟨values, hparts, rfl⟩ := (components_eq_ok_iff hunits).mp hcs
    exact hparts.numbers_of_foldlM hf hfold
  · rintro ⟨ns, hns, rfl⟩
    obtain ⟨values, hparts, hfold⟩ := hns.foldlM_of_numbers hf b
    exact ⟨_, (components_eq_ok_iff hunits).mpr ⟨values, hparts, rfl⟩, hfold⟩

/-! ## The designator -/

/-- An optional sign, the letter `P`, and what follows. -/
inductive IsDesignated (negative : Bool) (body : List Char) : List Char → Prop
  | mk {sign : List Char} {letter : Char} (hsign : IsSign negative sign)
      (hletter : letter = 'P' ∨ letter = 'p') : IsDesignated negative body (sign ++ letter :: body)

theorem splitDesignator_eq_ok_iff {negative : Bool} {body : List Char} :
    splitDesignator s = .ok (negative, body) ↔ IsDesignated negative body s := by
  constructor
  · intro h
    unfold splitDesignator at h
    split at h
    rename_i sign rest hsplit
    have hfront : ∃ front, IsSign sign front ∧ front ++ rest = s := by
      split at hsplit
      · cases hsplit
        exact ⟨_, .minus, rfl⟩
      · cases hsplit
        exact ⟨_, .plus, rfl⟩
      · cases hsplit
        exact ⟨_, .none, rfl⟩
    obtain ⟨front, hfront, rfl⟩ := hfront
    split at h
    · split at h
      · rename_i hletter
        cases h
        exact .mk hfront hletter
      · cases h
    · cases h
  · rintro ⟨hsign, hletter⟩
    cases hsign with
    | minus | plus => exact if_pos hletter
    | none => rcases hletter with rfl | rfl <;> rfl

end RecordFilter.Calendar
