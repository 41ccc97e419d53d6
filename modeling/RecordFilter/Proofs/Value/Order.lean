import RecordFilter.Proofs.Number.Order
import RecordFilter.Value.Order

/-!
# Values in order

Values that compare are on one scale: those of one kind, and for members those of one enumeration.
On a scale they are in order as what they are made of is, so comparing can be turned round and goes
through a third value.
-/

namespace RecordFilter

open RecordFilter.Calendar RecordFilter.Identifier RecordFilter.Number

/-! ## Comparisons -/

/-- A way of comparing that need not come to a result. Where it does, the result is turned round
with the sides, and two steps that do not go down make one. -/
structure IsComparison {α : Type} (cmp : α → α → Option Ordering) : Prop where
  swap {a b : α} {o : Ordering} (h : cmp a b = some o) : cmp b a = some o.swap
  trans {a b c : α} {o o' : Ordering} (hab : cmp a b = some o) (hbc : cmp b c = some o')
    (ho : o.isLE = true) (ho' : o'.isLE = true) : cmp a c = some (o.then o')

section

variable {α β : Type} {cmp : β → β → Ordering} [Std.TransCmp cmp]

theorem compare_then {a b c : β} (hab : (cmp a b).isLE = true) (hbc : (cmp b c).isLE = true) :
    cmp a c = (cmp a b).then (cmp b c) := by
  cases h : cmp a b with
  | lt => exact Std.TransCmp.lt_of_lt_of_isLE h hbc
  | eq => exact Std.TransCmp.congr_left h
  | gt =>
    rw [h] at hab
    cases hab

theorem isComparison_of_rank (rank : α → Option β) :
    IsComparison fun a b => (rank a).bind fun x => (rank b).map fun y => cmp x y where
  swap {a b o} h := by
    obtain ⟨x, hx, h⟩ := Option.bind_eq_some_iff.mp h
    obtain ⟨y, hy, rfl⟩ := Option.map_eq_some_iff.mp h
    simp only [hx, hy, Option.bind_some, Option.map_some, Option.some.injEq]
    exact Std.OrientedCmp.eq_swap
  trans {a b c o o'} hab hbc ho ho' := by
    obtain ⟨x, hx, hab⟩ := Option.bind_eq_some_iff.mp hab
    obtain ⟨y, hy, rfl⟩ := Option.map_eq_some_iff.mp hab
    obtain ⟨y', hy', hbc⟩ := Option.bind_eq_some_iff.mp hbc
    obtain ⟨z, hz, rfl⟩ := Option.map_eq_some_iff.mp hbc
    obtain rfl := Option.some.inj (hy.symm.trans hy')
    simp only [hx, hz, Option.bind_some, Option.map_some, Option.some.injEq]
    exact compare_then ho ho'

end

theorem isComparison_of_key {α β : Type} [Ord β] [Std.TransOrd β] (key : α → β) :
    IsComparison fun a b => some (compare (key a) (key b)) :=
  isComparison_of_rank fun a => some (key a)

theorem EnumValue.isComparison : IsComparison EnumValue.compare? where
  swap {a b o} h := by
    unfold compare? at h ⊢
    split at h
    · rename_i hname
      cases h
      rw [if_pos hname.symm, ← Std.OrientedOrd.eq_swap]
    · cases h
  trans {a b c o o'} hab hbc ho ho' := by
    unfold compare? at hab hbc ⊢
    split at hab
    · rename_i hname
      split at hbc
      · rename_i hname'
        cases hab
        cases hbc
        rw [if_pos (hname.trans hname'), compare_then ho ho']
      · cases hbc
    · cases hab

theorem Number.Binary.isComparison : IsComparison Binary.compare? := by
  have heq : Binary.compare? = fun a b =>
      a.rank.bind fun x => b.rank.map fun y => Binary.compareRanks x y := by
    funext a b
    exact a.compare?_eq b
  rw [heq]
  exact isComparison_of_rank Binary.rank

namespace Value

/-! ## Scales -/

/-- The values that `make` gives compare with each other by `cmp` and with nothing else. -/
structure Scale {α : Type} (make : α → Value) (cmp : α → α → Option Ordering) : Prop where
  isComparison : IsComparison cmp
  compare_make : ∀ x y, (make x).compare? (make y) = cmp x y
  closed : ∀ x v o, (make x).compare? v = some o → ∃ y, v = make y

/-- The value is on a scale. -/
def IsOnScale (v : Value) : Prop :=
  ∃ (α : Type) (make : α → Value) (cmp : α → α → Option Ordering), Scale make cmp ∧ ∃ x, v = make x

/-- The defaults hold for a constructor and the function that `compare?` uses on its arguments. -/
theorem isOnScale_of_isComparison {α : Type} (make : α → Value)
    {cmp : α → α → Option Ordering} (hcmp : IsComparison cmp) (x : α)
    (hmake : ∀ x y, (make x).compare? (make y) = cmp x y := by intros; rfl)
    (hclosed : ∀ x v o, (make x).compare? v = some o → ∃ y, v = make y := by
      intro x v o h
      cases v <;> first | exact ⟨_, rfl⟩ | cases h) : IsOnScale (make x) :=
  ⟨α, make, cmp, ⟨hcmp, hmake, hclosed⟩, x, rfl⟩

/-- Null, lists, bytes and periods. -/
def isUnordered : Value → Bool
  | null | list _ | bytes _ | period _ => true
  | _ => false

theorem compare?_of_isUnordered {a : Value} (h : a.isUnordered = true) (b : Value) :
    a.compare? b = none := by
  cases a with
  | null | list _ | bytes _ | period _ => cases b <;> rfl
  | _ => cases h

theorem isOnScale_of_isUnordered_eq_false {v : Value} (h : v.isUnordered = false) :
    IsOnScale v := by
  cases v with
  | null | list _ | bytes _ | period _ => cases h
  | bigint n => exact isOnScale_of_isComparison bigint (isComparison_of_key id) n
  | bool b => exact isOnScale_of_isComparison bool (isComparison_of_key id) b
  | char c => exact isOnScale_of_isComparison char (isComparison_of_key Char.toNat) c
  | date d => exact isOnScale_of_isComparison date (isComparison_of_key Date.rank) d
  | datetime t => exact isOnScale_of_isComparison datetime (isComparison_of_key DateTime.rank) t
  | decimal x =>
    exact isOnScale_of_isComparison decimal (isComparison_of_key Decimal.fraction) x
      fun x y => congrArg some (x.compare_eq y)
  | duration d => exact isOnScale_of_isComparison duration (isComparison_of_key Duration.nanos) d
  | enumMember e => exact isOnScale_of_isComparison enumMember EnumValue.isComparison e
  | f32 x => exact isOnScale_of_isComparison f32 Binary.isComparison x
  | f64 x => exact isOnScale_of_isComparison f64 Binary.isComparison x
  | instant t => exact isOnScale_of_isComparison instant (isComparison_of_key Instant.moment) t
  | int n => exact isOnScale_of_isComparison int (isComparison_of_key id) n
  | i128 n => exact isOnScale_of_isComparison i128 (isComparison_of_key id) n
  | objectId id => exact isOnScale_of_isComparison objectId (isComparison_of_key Word.value) id
  | text s => exact isOnScale_of_isComparison text (isComparison_of_key id) s
  | time t => exact isOnScale_of_isComparison time (isComparison_of_key TimeOfDay.nanos) t
  | uint n => exact isOnScale_of_isComparison uint (isComparison_of_key id) n
  | ulid id => exact isOnScale_of_isComparison ulid (isComparison_of_key Word.value) id
  | uuid id => exact isOnScale_of_isComparison uuid (isComparison_of_key Word.value) id
  | year y => exact isOnScale_of_isComparison year (isComparison_of_key id) y

theorem isOnScale_of_compare? {a b : Value} {o : Ordering} (h : a.compare? b = some o) :
    IsOnScale a := by
  apply isOnScale_of_isUnordered_eq_false
  cases hunordered : a.isUnordered with
  | false => rfl
  | true =>
    rw [compare?_of_isUnordered hunordered] at h
    cases h

/-! ## Turning round and going on -/

variable {a b c : Value} {o o' : Ordering}

theorem compare?_swap_of_some (h : a.compare? b = some o) : b.compare? a = some o.swap := by
  obtain ⟨α, make, cmp, hscale, x, rfl⟩ := isOnScale_of_compare? h
  obtain ⟨y, rfl⟩ := hscale.closed x b o h
  rw [hscale.compare_make] at h ⊢
  exact hscale.isComparison.swap h

theorem compare?_swap (a b : Value) : b.compare? a = (a.compare? b).map Ordering.swap := by
  cases h : a.compare? b with
  | some o => exact compare?_swap_of_some h
  | none =>
    cases h' : b.compare? a with
    | none => rfl
    | some o =>
      rw [compare?_swap_of_some h'] at h
      cases h

theorem compare?_trans (hab : a.compare? b = some o) (hbc : b.compare? c = some o')
    (ho : o.isLE = true) (ho' : o'.isLE = true) : a.compare? c = some (o.then o') := by
  obtain ⟨α, make, cmp, hscale, x, rfl⟩ := isOnScale_of_compare? hab
  obtain ⟨y, rfl⟩ := hscale.closed x b o hab
  obtain ⟨z, rfl⟩ := hscale.closed y c o' hbc
  rw [hscale.compare_make] at hab hbc ⊢
  exact hscale.isComparison.trans hab hbc ho ho'

/-! ## What does not compare -/

/-- What is not a number. -/
def isNaN : Value → Bool
  | f32 .nan | f64 .nan => true
  | _ => false

/-- Members of two enumerations. -/
def OfTwoEnums (a b : Value) : Prop :=
  ∃ e e', a = enumMember e ∧ b = enumMember e' ∧ e.enumName ≠ e'.enumName

/-- The values are not on one scale: they differ in kind or in their enumeration, they have no
order, or one of them is not a number. -/
def Unrelated (a b : Value) : Prop :=
  a.label ≠ b.label ∨ a.isUnordered = true ∨ OfTwoEnums a b ∨ a.isNaN = true ∨ b.isNaN = true

theorem label_eq_of_compare? (h : a.compare? b = some o) : a.label = b.label := by
  unfold compare? at h
  split at h <;> first | rfl | cases h

theorem compare?_eq_none_of_isNaN (h : a.isNaN = true) (b : Value) : a.compare? b = none := by
  cases a with
  | f32 x =>
    cases x <;> cases h
    cases b <;> rfl
  | f64 x =>
    cases x <;> cases h
    cases b <;> rfl
  | _ => cases h

theorem compare?_eq_none_of_unrelated (h : Unrelated a b) : a.compare? b = none := by
  rcases h with h | h | ⟨e, e', rfl, rfl, h⟩ | h | h
  · cases hcompare : a.compare? b with
    | none => rfl
    | some o => exact absurd (label_eq_of_compare? hcompare) h
  · exact compare?_of_isUnordered h b
  · exact if_neg h
  · exact compare?_eq_none_of_isNaN h b
  · rw [compare?_swap b a, compare?_eq_none_of_isNaN h a]
    rfl

theorem unrelated_of_compare?_eq_none (h : a.compare? b = none) : Unrelated a b := by
  cases a with
  | null | list _ | bytes _ | period _ => exact .inr (.inl rfl)
  | enumMember e =>
    cases b with
    | enumMember e' =>
      refine .inr (.inr (.inl ⟨e, e', rfl, rfl, fun hname => ?_⟩))
      rw [compare?, EnumValue.compare?, if_pos hname] at h
      cases h
    | _ => exact .inl (by simp [label])
  | f32 x =>
    cases b with
    | f32 y =>
      rcases Binary.compare?_eq_none_iff.mp h with rfl | rfl
      · exact .inr (.inr (.inr (.inl rfl)))
      · exact .inr (.inr (.inr (.inr rfl)))
    | _ => exact .inl (by simp [label])
  | f64 x =>
    cases b with
    | f64 y =>
      rcases Binary.compare?_eq_none_iff.mp h with rfl | rfl
      · exact .inr (.inr (.inr (.inl rfl)))
      · exact .inr (.inr (.inr (.inr rfl)))
    | _ => exact .inl (by simp [label])
  | _ => cases b <;> first | (cases h; done) | exact .inl (by simp [label])

theorem compare?_eq_none_iff : a.compare? b = none ↔ Unrelated a b :=
  ⟨unrelated_of_compare?_eq_none, compare?_eq_none_of_unrelated⟩

/-! ## The theorem -/

/-- Comparing the other way round turns the result round. What does not go down in two steps does
not go down, and goes up when one of the steps does. Just the values that are not on one scale do
not compare. -/
theorem compare?_strict (a b c : Value) :
    b.compare? a = (a.compare? b).map Ordering.swap ∧
      (∀ o o', a.compare? b = some o → b.compare? c = some o' → o ≠ .gt → o' ≠ .gt →
        ∃ r, a.compare? c = some r ∧ r ≠ .gt ∧ (r = .lt ↔ o = .lt ∨ o' = .lt)) ∧
      (a.compare? b = none ↔ Unrelated a b) := by
  refine ⟨compare?_swap a b, fun o o' hab hbc ho ho' => ?_, compare?_eq_none_iff⟩
  refine ⟨o.then o', compare?_trans hab hbc ?_ ?_, ?_⟩
  · rwa [Ordering.isLE_iff_ne_gt]
  · rwa [Ordering.isLE_iff_ne_gt]
  · cases o <;> cases o' <;> simp_all

/-- The price 1.50. -/
def onePointFifty : Value := decimal ⟨false, 150, 2, by decide, by decide⟩

def onePointFive : Value := decimal ⟨false, 15, 1, by decide, by decide⟩

def two : Value := decimal ⟨false, 2, 0, by decide, by decide⟩

theorem onePointFifty_two :
    onePointFifty.compare? onePointFive = some .eq ∧ onePointFive.compare? two = some .lt ∧
      (∃ r, onePointFifty.compare? two = some r ∧ r ≠ .gt ∧
        (r = .lt ↔ Ordering.eq = .lt ∨ Ordering.lt = .lt)) ∧
      two.compare? onePointFive = some .gt := by
  have hfirst : onePointFifty.compare? onePointFive = some .eq := by decide
  have hsecond : onePointFive.compare? two = some .lt := by decide
  refine ⟨hfirst, hsecond, ?_, ?_⟩
  · exact (compare?_strict onePointFifty onePointFive two).2.1 .eq .lt hfirst hsecond nofun nofun
  · rw [(compare?_strict onePointFive two two).1, hsecond]
    rfl

end Value

end RecordFilter
