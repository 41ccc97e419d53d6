import Mathlib.Algebra.Order.Field.Rat
import Mathlib.Algebra.Order.Ring.Unbundled.Basic
import Mathlib.Data.Rat.Cast.Order
import Mathlib.Tactic.FieldSimp
import RecordFilter.Number.Binary
import RecordFilter.Number.Decimal

/-!
# The order of numbers

Decimals compare as the fractions that they are, whatever their places. Binary numbers compare by
their ranks, and what is not a number has none.
-/

namespace RecordFilter.Number

namespace Decimal

/-- The fraction that the decimal is. -/
def fraction (x : Decimal) : ℚ := x.signed / 10 ^ x.scale

theorem compare_eq (a b : Decimal) : a.compare b = Ord.compare a.fraction b.fraction := by
  have hpos : (0 : ℚ) < 10 ^ a.scale * 10 ^ b.scale :=
    mul_pos (pow_pos (by norm_num) _) (pow_pos (by norm_num) _)
  have hleft : a.fraction * (10 ^ a.scale * 10 ^ b.scale) =
      ((a.signed * Int.pow 10 b.scale : Int) : ℚ) := by
    rw [fraction, Int.pow_eq]
    push_cast
    field_simp
  have hright : b.fraction * (10 ^ a.scale * 10 ^ b.scale) =
      ((b.signed * Int.pow 10 a.scale : Int) : ℚ) := by
    rw [fraction, Int.pow_eq]
    push_cast
    field_simp
  rw [compare, ← cmp_eq_compare, ← cmp_eq_compare, ← cmp_mul_pos_right hpos, hleft, hright]
  exact (Int.cast_strictMono.cmp_map_eq _ _).symm

end Decimal

namespace Binary

/-- Ranks compare by the side of infinity first, then by the signed units. -/
def compareRanks : Int × Int → Int × Int → Ordering :=
  compareLex (compareOn Prod.fst) (compareOn Prod.snd)

instance : Std.TransCmp compareRanks :=
  inferInstanceAs (Std.TransCmp (compareLex (compareOn Prod.fst) (compareOn Prod.snd)))

theorem compare?_eq (a b : Binary) :
    a.compare? b = a.rank.bind fun x => b.rank.map fun y => compareRanks x y := by
  unfold compare?
  cases a.rank <;> cases b.rank <;> rfl

theorem rank_eq_none_iff {x : Binary} : x.rank = none ↔ x = .nan := by
  cases x <;> simp [rank]

theorem compare?_eq_none_iff {a b : Binary} : a.compare? b = none ↔ a = .nan ∨ b = .nan := by
  rw [compare?_eq, ← rank_eq_none_iff, ← rank_eq_none_iff]
  cases a.rank <;> cases b.rank <;> simp

end Binary

end RecordFilter.Number
