import RecordFilter.Text.Digit
import RecordFilter.Number.Integer

/-!
# Decimal numbers

A decimal is a sign, a whole coefficient of at most 96 bits and a scale of at most 28 places. The
places that were written are kept, so `1.50` and `1.5` differ as texts and are equal as numbers.
-/

namespace RecordFilter.Number

open RecordFilter.Text

/-- The most places that a decimal has. -/
def mostPlaces : Nat := 28

/-- The number `coefficient / 10 ^ scale` with its sign. -/
structure Decimal where
  negative : Bool
  coefficient : Nat
  scale : Nat
  coefficient_lt : coefficient < Nat.pow 2 96
  scale_le : scale ≤ mostPlaces
  deriving DecidableEq, Repr

namespace Decimal

def of? (negative : Bool) (coefficient scale : Nat) : Option Decimal :=
  if h : coefficient < Nat.pow 2 96 ∧ scale ≤ mostPlaces then
    some ⟨negative, coefficient, scale, h.1, h.2⟩
  else none

/-! ## Order -/

/-- The coefficient with the sign. Zero is one number under both signs. -/
def signed (x : Decimal) : Int := if x.negative then -(x.coefficient : Int) else x.coefficient

/-- Decimals compare as numbers, whatever their scales. -/
def compare (a b : Decimal) : Ordering :=
  Ord.compare (a.signed * Int.pow 10 b.scale) (b.signed * Int.pow 10 a.scale)

/-! ## Writing -/

/-- The number with all its places. -/
def text (x : Decimal) : List Char :=
  let digits := padded (x.scale + 1) x.coefficient
  let whole := digits.take (digits.length - x.scale)
  let places := digits.drop (digits.length - x.scale)
  (if x.negative then ['-'] else []) ++ whole ++ (if x.scale = 0 then [] else '.' :: places)

/-! ## Rounding -/

/-- A half rounds away from zero. Where rounding up no longer fits, a place is given up. -/
def roundUp (coefficient scale : Nat) : Option (Nat × Nat) :=
  if coefficient + 1 < Nat.pow 2 96 then some (coefficient + 1, scale)
  else if scale = 0 then none
  else some ((coefficient + 5) / 10, scale - 1)

/-- Rounds by the first digit that is left over. -/
def roundBy (coefficient scale digit : Nat) : Option (Nat × Nat) :=
  if 5 ≤ digit then roundUp coefficient scale else some (coefficient, scale)

/-- The coefficient without its last digits, rounded by the first of them. -/
def dropDigits (coefficient : Nat) : Nat → Nat
  | 0 => coefficient
  | count + 1 => (coefficient / Nat.pow 10 count + 5) / 10

/-! ## Reading

The digits are read from the left. When the places run out, or one more digit would no longer fit,
the next digit rounds the number and those behind it do not count.
-/

/-- Digits with at most one point, and underscores anywhere behind the first digit. `point` tells
that the point has come, `seen` that a digit has. -/
def isNumeral (point seen : Bool) : List Char → Bool
  | [] => seen
  | c :: rest =>
    if isDigit c then isNumeral point true rest
    else if c = '.' then !point && isNumeral true seen rest
    else c == '_' && seen && isNumeral point seen rest

/-- A coefficient below this is short: any digit may follow it in 64 bits, with room to spare. -/
def shortLimit : Nat := 1844674407370954906

/-- The digit that rounds the last place. Underscores are looked through, but one that follows a
short coefficient at once stands for a zero. -/
def digitBehind (short : Bool) (rest : List Char) : Nat :=
  if short && rest.head? == some '_' then 0 else (rest.findSome? digit?).getD 0

/-- Reads the digits of a numeral behind those that gave `coefficient` and `scale`. -/
def readDigits (point : Bool) (coefficient scale : Nat) : List Char → Option (Nat × Nat)
  | [] => some (coefficient, scale)
  | c :: rest =>
    match digit? c with
    | none => readDigits (point || c == '.') coefficient scale rest
    | some d =>
      let next := coefficient * 10 + d
      let places := if point then scale + 1 else scale
      if Nat.pow 2 96 ≤ next then
        if point then roundBy coefficient scale d else none
      else if places = mostPlaces then
        roundBy next places (digitBehind (coefficient < shortLimit) rest)
      else readDigits point next places rest

/-- Reads a number without a sign. Zero has none. -/
def readUnsigned (negative : Bool) (s : List Char) : Option Decimal :=
  if isNumeral false false s then
    (readDigits false 0 0 s).bind fun (n, scale) => of? (negative && n != 0) n scale
  else none

/-- Reads a number in positional form. -/
def readPositional : List Char → Option Decimal
  | '-' :: s => readUnsigned true s
  | '+' :: s => readUnsigned false s
  | s => readUnsigned false s

/-- Divides by a power of ten. Digits beyond the last place are rounded off, and the sign stays
when nothing but zeros is left. -/
def shiftRight (x : Decimal) (count : Nat) : Option Decimal :=
  let places := x.scale + count
  of? x.negative (dropDigits x.coefficient (places - mostPlaces)) (min places mostPlaces)

/-- Multiplies by a power of ten. Places are taken away while there are places; beyond that the
coefficient grows. -/
def shiftLeft (x : Decimal) (count : Nat) : Option Decimal :=
  if count ≤ x.scale then of? x.negative x.coefficient (x.scale - count)
  else of? x.negative (x.coefficient * Nat.pow 10 (count - x.scale)) 0

/-- A power of ten, up to the number of places. -/
def readPower (s : List Char) : Option Nat :=
  match (IntegerRange.unsigned 32).read s with
  | .ok n => if n.toNat ≤ mostPlaces then some n.toNat else none
  | .error _ => none

/-- Multiplies by the power of ten that the text writes, which is below one behind a minus sign. -/
def shift (x : Decimal) : List Char → Option Decimal
  | '-' :: s => (readPower s).bind x.shiftRight
  | s => (readPower s).bind x.shiftLeft

/-- Reads a number with an exponent, such as `1.5e3`. -/
def readScientific (s : List Char) : Option Decimal :=
  let isMark (c : Char) := c == 'e' || c == 'E'
  match s.dropWhile (!isMark ·) with
  | _ :: exponent => (readPositional (s.takeWhile (!isMark ·))).bind (shift · exponent)
  | [] => none

/-- Reads a decimal in either form. -/
def read (s : List Char) : Option Decimal := (readPositional s).or (readScientific s)

example : (read "2.5e-28".toList).map text = some "0.0000000000000000000000000003".toList ∧
    (read "-.1e-28".toList).map text = some "-0.0000000000000000000000000000".toList ∧
    read "1.00000000000000000000000000005x".toList = none := by decide +kernel

end Decimal

end RecordFilter.Number
