import RecordFilter.Text.Digit

/-!
# Binary floating-point numbers

Both widths are held exactly: a finite value is a whole number of units of 2 ^ -1074, the least
positive number of the wide format. A format says which whole numbers of units it can hold.
-/

namespace RecordFilter.Number

inductive Binary
  | nan
  | infinite (negative : Bool)
  /-- The value `units * 2 ^ -1074`, with the sign that also zero has. -/
  | finite (negative : Bool) (units : Nat)
  deriving DecidableEq, Repr

/-- The binary places of a unit. -/
def unitPlaces : Nat := 1074

namespace Binary

def isFinite : Binary → Bool
  | finite .. => true
  | _ => false

/-! ## Order -/

/-- Where a number stands: the side of infinity first, then the signed units. -/
def rank : Binary → Option (Int × Int)
  | nan => none
  | infinite negative => some (if negative then -1 else 1, 0)
  | finite negative units => some (0, if negative then -(units : Int) else units)

/-- Numbers compare by value, both zeros are one, and nothing compares with no number. -/
def compare? (a b : Binary) : Option Ordering :=
  match a.rank, b.rank with
  | some x, some y => some ((compare x.1 y.1).then (compare x.2 y.2))
  | _, _ => none

def equal (a b : Binary) : Bool := a.compare? b == some .eq

end Binary

/-! ## Formats -/

/-- A format holds `significand * 2 ^ step` units with a significand of at most `precision` bits and
a step in the given bounds. -/
structure BinaryFormat where
  precision : Nat
  leastStep : Nat
  greatestStep : Nat

namespace BinaryFormat

/-- The format of 32 bits. -/
def single : BinaryFormat := ⟨24, 925, 1178⟩

/-- The format of 64 bits. -/
def double : BinaryFormat := ⟨53, 0, 2045⟩

/-- The step of the numbers around `units`. -/
def step (f : BinaryFormat) (units : Nat) : Nat := max f.leastStep (units.log2 - (f.precision - 1))

/-- The quotient rounded to a whole number, a half to the even neighbour. -/
def roundQuotient (n d : Nat) : Nat :=
  let q := n / d
  let r := n % d
  if 2 * r < d then q else if d < 2 * r then q + 1 else if q % 2 = 0 then q else q + 1

/-- The number of the format nearest to `n / d`. -/
def nearest (f : BinaryFormat) (negative : Bool) (n d : Nat) : Binary :=
  let scaled := n * Nat.pow 2 unitPlaces
  let step := f.step (scaled / d)
  let units := roundQuotient scaled (d * Nat.pow 2 step) * Nat.pow 2 step
  if units < Nat.pow 2 (f.precision + f.greatestStep) then .finite negative units
  else .infinite negative

end BinaryFormat

end RecordFilter.Number
