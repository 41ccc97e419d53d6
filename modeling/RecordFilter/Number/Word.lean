/-!
# Words of 64 bits

Limits and counters are words. Behind the greatest word there is none: a counter there stays, or
starts again from zero, or cannot count at all.
-/

namespace RecordFilter.Number

def greatestWord : UInt64 := .ofNat (UInt64.size - 1)

/-- The next word, where what follows the greatest is zero. -/
def wrappingSucc (n : UInt64) : UInt64 := n + 1

/-- The next word, up to the greatest. -/
def saturatingSucc (n : UInt64) : UInt64 := if n = greatestWord then n else n + 1

theorem le_greatestWord (n : UInt64) : n ≤ greatestWord := by
  rw [UInt64.le_iff_toNat_le]
  exact Nat.le_sub_one_of_lt n.toNat_lt

theorem toNat_lt_of_ne {n : UInt64} (h : n ≠ greatestWord) : n.toNat < greatestWord.toNat :=
  UInt64.lt_iff_toNat_lt.mp (UInt64.lt_of_le_of_ne (le_greatestWord n) h)

theorem toNat_add_one {n : UInt64} (h : n ≠ greatestWord) : (n + 1).toNat = n.toNat + 1 := by
  have hlt : n.toNat + 1 < UInt64.size :=
    Nat.lt_of_le_of_lt (toNat_lt_of_ne h) greatestWord.toNat_lt
  rw [UInt64.toNat_add, UInt64.toNat_one]
  exact Nat.mod_eq_of_lt hlt

theorem toNat_saturatingSucc (n : UInt64) :
    (saturatingSucc n).toNat = min (n.toNat + 1) greatestWord.toNat := by
  unfold saturatingSucc
  split
  · rename_i h
    rw [h]
    omega
  · rename_i h
    have hlt := toNat_lt_of_ne h
    rw [toNat_add_one h]
    omega

end RecordFilter.Number
