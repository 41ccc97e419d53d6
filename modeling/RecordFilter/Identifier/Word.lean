/-!
# Words of digits

An identifier is a word: a fixed number of digits in some base. Words of one length are ordered
from their first digit on, which is also the order of the numbers that they write.
-/

namespace RecordFilter.Identifier

/-- `length` digits in the given base, the first one the most significant. -/
structure Word (base length : Nat) where
  digits : List (Fin base)
  length_eq : digits.length = length
  deriving DecidableEq, Repr

namespace Word

variable {base length : Nat}

def ofList? (digits : List (Fin base)) : Option (Word base length) :=
  if h : digits.length = length then some ⟨digits, h⟩ else none

/-- The number that the digits write. -/
def value (w : Word base length) : Nat :=
  w.digits.foldl (fun n (d : Fin base) => n * base + d.val) 0

def compare (a b : Word base length) : Ordering := Ord.compare a.value b.value

/-- Writes each digit as the character at its place in the alphabet. -/
def text (alphabet : List Char) (w : Word base length) : List Char :=
  w.digits.map fun (d : Fin base) => alphabet.getD d.val ' '

end Word

/-! ## Hexadecimal digits -/

def hexAlphabet : List Char :=
  ['0', '1', '2', '3', '4', '5', '6', '7', '8', '9', 'a', 'b', 'c', 'd', 'e', 'f']

/-- The value of a hexadecimal digit, in capitals or small letters. -/
def hexDigit? (c : Char) : Option (Fin 16) :=
  let n := c.toNat
  if _ : 0x30 ≤ n ∧ n ≤ 0x39 then some ⟨n - 0x30, by omega⟩
  else if _ : 0x61 ≤ n ∧ n ≤ 0x66 then some ⟨n - 0x61 + 10, by omega⟩
  else if _ : 0x41 ≤ n ∧ n ≤ 0x46 then some ⟨n - 0x41 + 10, by omega⟩
  else none

def isHexDigit (c : Char) : Bool := (hexDigit? c).isSome

/-- The digits of the text, if it has no other characters. -/
def hexDigits? (s : List Char) : Option (List (Fin 16)) := s.mapM hexDigit?

end RecordFilter.Identifier
