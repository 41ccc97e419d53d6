import RecordFilter.Identifier.Word
import RecordFilter.Text.Utf8

/-!
# ULIDs

128 bits, written as 26 digits in base 32. The first digit has room for two bits too many; they are
dropped on reading.
-/

namespace RecordFilter.Identifier

open RecordFilter.Text

abbrev Ulid := Word 32 26

/-- Why a text is no ULID. -/
inductive UlidFault
  | length
  | character
  deriving DecidableEq, Repr

def UlidFault.message : UlidFault → String
  | .length => "invalid length"
  | .character => "invalid character"

namespace Ulid

/-- The digits of base 32 by Crockford: no I, L, O and U. -/
def alphabet : List Char :=
  ['0', '1', '2', '3', '4', '5', '6', '7', '8', '9', 'A', 'B', 'C', 'D', 'E', 'F', 'G', 'H', 'J',
    'K', 'M', 'N', 'P', 'Q', 'R', 'S', 'T', 'V', 'W', 'X', 'Y', 'Z']

def digit? (c : Char) : Option (Fin 32) :=
  (alphabet.idxOf? c.toUpper).bind fun n => if h : n < 32 then some ⟨n, h⟩ else none

def text (id : Ulid) : List Char := Word.text alphabet id

/-- The first digit without the bits that do not fit. -/
def fit : List (Fin 32) → List (Fin 32)
  | [] => []
  | d :: rest => ⟨d % 8, by omega⟩ :: rest

/-- The length is checked in bytes, and before the characters. -/
def read (s : List Char) : Except UlidFault Ulid :=
  if (utf8 s).length ≠ 26 then .error .length
  else match (s.mapM digit?).bind fun digits => Word.ofList? (fit digits) with
    | some id => .ok id
    | none => .error .character

end Ulid

end RecordFilter.Identifier
