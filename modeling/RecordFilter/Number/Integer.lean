import RecordFilter.Text.Digit

/-!
# Bounded integers

Reading an integer of a given range, with the reason when a text is none. The text is read from the
left, and the first fault met is the one reported: a text that is too large at its fifth character
and no number at its sixth is too large.
-/

namespace RecordFilter.Number

open RecordFilter.Text

/-- Why a text is not an integer of the range. -/
inductive IntegerFault
  | empty
  | invalidDigit
  | tooLarge
  | tooSmall
  deriving DecidableEq, Repr

def IntegerFault.message : IntegerFault → String
  | .empty => "cannot parse integer from empty string"
  | .invalidDigit => "invalid digit found in string"
  | .tooLarge => "number too large to fit in target type"
  | .tooSmall => "number too small to fit in target type"

/-- The integers from `least` to `greatest`. A minus sign is read only where `least` is negative. -/
structure IntegerRange where
  least : Int
  greatest : Int
  deriving DecidableEq, Repr

namespace IntegerRange

/-- The integers of `bits` bits in two's complement. -/
def signed (bits : Nat) : IntegerRange := ⟨-Int.pow 2 (bits - 1), Int.pow 2 (bits - 1) - 1⟩

def unsigned (bits : Nat) : IntegerRange := ⟨0, Int.pow 2 bits - 1⟩

def Holds (r : IntegerRange) (n : Int) : Prop := r.least ≤ n ∧ n ≤ r.greatest

instance (r : IntegerRange) (n : Int) : Decidable (r.Holds n) :=
  inferInstanceAs (Decidable (r.least ≤ n ∧ n ≤ r.greatest))

/-- One more digit at the end, away from zero on the side of the sign. -/
def append (negative : Bool) (value : Int) (d : Nat) : Int :=
  if negative then value * 10 - d else value * 10 + d

/-- Goes on reading digits after `value`. -/
def readDigits (r : IntegerRange) (negative : Bool) (value : Int) :
    List Char → Except IntegerFault Int
  | [] => .ok value
  | c :: rest =>
    match digit? c with
    | none => .error .invalidDigit
    | some d =>
      let next := append negative value d
      if next < r.least then .error .tooSmall
      else if r.greatest < next then .error .tooLarge
      else r.readDigits negative next rest

/-- Reads an integer with an optional sign. -/
def read (r : IntegerRange) : List Char → Except IntegerFault Int
  | [] => .error .empty
  | ['+'] | ['-'] => .error .invalidDigit
  | '+' :: rest => r.readDigits false 0 rest
  | '-' :: rest => if r.least < 0 then r.readDigits true 0 rest else .error .invalidDigit
  | s => r.readDigits false 0 s

theorem holds_of_readDigits {r : IntegerRange} {negative : Bool} {value n : Int} {s : List Char}
    (hv : r.Holds value) (h : r.readDigits negative value s = .ok n) : r.Holds n := by
  induction s generalizing value with
  | nil => simp only [readDigits, Except.ok.injEq] at h; exact h ▸ hv
  | cons c rest ih =>
    simp only [readDigits] at h
    split at h
    · cases h
    · split at h
      · cases h
      · split at h
        · cases h
        · exact ih ⟨by omega, by omega⟩ h

end IntegerRange

/-! ## Integers of any size

Underscores may stand anywhere after the first digit.
-/

def readBigDigits (value : Nat) : List Char → Except IntegerFault Nat
  | [] => .ok value
  | '_' :: rest => readBigDigits value rest
  | c :: rest =>
    match digit? c with
    | none => .error .invalidDigit
    | some d => readBigDigits (value * 10 + d) rest

/-- Reads an unsigned integer of any size, with an optional plus sign. -/
def readBigNatural (s : List Char) : Except IntegerFault Nat :=
  let body := match s with
    | '+' :: '+' :: _ => s
    | '+' :: rest => rest
    | _ => s
  match body with
  | [] => .error .empty
  | '_' :: _ => .error .invalidDigit
  | _ => readBigDigits 0 body

/-- Reads an integer of any size. -/
def readBig : List Char → Except IntegerFault Int
  | '-' :: '+' :: _ => .error .invalidDigit
  | '-' :: rest => (readBigNatural rest).map fun n => -(n : Int)
  | s => (readBigNatural s).map Int.ofNat

example : readBig "-1_000".toList = .ok (-1000) ∧ readBig "+_1".toList = .error .invalidDigit ∧
    readBig "-".toList = .error .empty := ⟨rfl, rfl, rfl⟩

end RecordFilter.Number
