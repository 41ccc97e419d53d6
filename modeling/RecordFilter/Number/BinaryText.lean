import RecordFilter.Number.Binary
import RecordFilter.Text.Ascii

/-!
# The text of a floating-point number

A number is written with the fewest digits that read back as the same number of its format, in
positional form at every size. Reading takes positional and scientific forms and the names of the
numbers that are not finite.
-/

namespace RecordFilter.Number

open RecordFilter.Text

/-! ## Writing -/

/-- The reals that round to `units`, in quarters of a unit. Both ends belong to them when the
significand is even. -/
structure Interval where
  low : Nat
  high : Nat
  closed : Bool

namespace BinaryFormat

/-- Below a power of two the numbers lie twice as close as above it. -/
def interval (f : BinaryFormat) (units : Nat) : Interval :=
  let step := f.step units
  let significand := units / Nat.pow 2 step
  let narrow := significand == Nat.pow 2 (f.precision - 1) && f.leastStep < step
  ⟨4 * units - (if narrow then Nat.pow 2 step else 2 * Nat.pow 2 step),
    4 * units + 2 * Nat.pow 2 step,
    significand % 2 == 0⟩

end BinaryFormat

/-- The grid of the multiples of `10 ^ exponent`, as the fraction `up / down` that turns quarters of
a unit into quarters of a grid step. -/
structure Grid where
  up : Nat
  down : Nat

def Grid.of (exponent : Int) : Grid :=
  ⟨Nat.pow 10 (-exponent).toNat, Nat.pow 2 unitPlaces * Nat.pow 10 exponent.toNat⟩

def Interval.holds (i : Interval) (g : Grid) (count : Nat) : Bool :=
  let point := 4 * count * g.down
  if i.closed then i.low * g.up ≤ point && point ≤ i.high * g.up
  else i.low * g.up < point && point < i.high * g.up

/-- The point of the grid next to `units` that lies in the interval: the nearer of two, and the
upper one when both are as near. -/
def Interval.pick (i : Interval) (g : Grid) (units : Nat) : Option Nat :=
  let below := units * g.up / g.down
  let rest := units * g.up % g.down
  match i.holds g below, i.holds g (below + 1) with
  | true, true => some (if 2 * rest < g.down then below else below + 1)
  | true, false => some below
  | false, true => some (below + 1)
  | false, false => none

/-- The least exponent of ten above the value of positive units. -/
def exponentAbove (units : Nat) : Int :=
  ((decimal (units * Nat.pow 10 340 / Nat.pow 2 unitPlaces)).length : Int) - 340

/-- The coarsest grid that has a point in the interval, and that point. Zero is a point of all. -/
def shortest (f : BinaryFormat) (units : Nat) : Option (Nat × Int) :=
  if units = 0 then some (0, 0) else
  let i := f.interval units
  let top := exponentAbove units
  (List.range 20).findSome? fun n =>
    let exponent := top - (n : Nat)
    (i.pick (Grid.of exponent) units).map (·, exponent)

/-- The digits of `count * 10 ^ exponent` without an exponent. -/
def positional (count : Nat) (exponent : Int) : List Char :=
  if 0 ≤ exponent then decimal count ++ List.replicate exponent.toNat '0'
  else
    let places := (-exponent).toNat
    let digits := padded (places + 1) count
    digits.take (digits.length - places) ++ '.' :: digits.drop (digits.length - places)

/-- The number as a text of the format. -/
def Binary.text (f : BinaryFormat) : Binary → List Char
  | .nan => ['N', 'a', 'N']
  | .infinite negative => (if negative then ['-'] else []) ++ ['i', 'n', 'f']
  | .finite negative units =>
    (if negative then ['-'] else []) ++
      match shortest f units with
      | some (count, exponent) => positional count exponent
      | none => ['0']

/-! ## Reading -/

/-- The exponent after its letter. -/
def readExponent : List Char → Option Int
  | '-' :: s => (natural? s).map fun n => -(n : Int)
  | '+' :: s => (natural? s).map Int.ofNat
  | s => (natural? s).map Int.ofNat

/-- A decimal numeral without a sign: a coefficient and an exponent of ten. -/
def readNumeral (s : List Char) : Option (Nat × Int) :=
  let whole := s.takeWhile isDigit
  let afterWhole := s.dropWhile isDigit
  let places := match afterWhole with
    | '.' :: t => t.takeWhile isDigit
    | _ => []
  let rest := match afterWhole with
    | '.' :: t => t.dropWhile isDigit
    | t => t
  (natural? (whole ++ places)).bind fun n =>
    match rest with
    | [] => some (n, -(places.length : Int))
    | c :: t =>
      if c = 'e' ∨ c = 'E' then (readExponent t).map fun e => (n, e - places.length) else none

/-- The number nearest to `count * 10 ^ exponent`. Far outside every format no power is taken. -/
def nearestDecimal (f : BinaryFormat) (negative : Bool) (count : Nat) (exponent : Int) : Binary :=
  let magnitude := (decimal count).length + exponent
  if count = 0 ∨ magnitude < -400 then .finite negative 0
  else if 400 < magnitude then .infinite negative
  else f.nearest negative (count * Nat.pow 10 exponent.toNat) (Nat.pow 10 (-exponent).toNat)

def readUnsigned (f : BinaryFormat) (negative : Bool) (s : List Char) : Option Binary :=
  if sameIgnoringCase s ['n', 'a', 'n'] then some .nan
  else if sameIgnoringCase s ['i', 'n', 'f'] ||
      sameIgnoringCase s ['i', 'n', 'f', 'i', 'n', 'i', 't', 'y'] then
    some (.infinite negative)
  else (readNumeral s).map fun (count, exponent) => nearestDecimal f negative count exponent

/-- Reads a floating-point number with an optional sign. -/
def readBinary (f : BinaryFormat) : List Char → Option Binary
  | '-' :: s => readUnsigned f true s
  | '+' :: s => readUnsigned f false s
  | s => readUnsigned f false s

end RecordFilter.Number
