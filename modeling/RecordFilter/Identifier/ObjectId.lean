import RecordFilter.Identifier.Word
import RecordFilter.Text.Digit
import RecordFilter.Text.Utf8

/-!
# Object identifiers

The identifier of a stored document: 12 bytes, written as 24 hexadecimal digits.
-/

namespace RecordFilter.Identifier

open RecordFilter.Text

abbrev ObjectId := Word 16 24

/-- Why a text is no object identifier. -/
inductive ObjectIdFault
  | length (found : Nat)
  | nonHex (c : Char)
  deriving DecidableEq, Repr

def ObjectIdFault.message : ObjectIdFault → String
  | .length n => "object id must be 24 hex characters, found " ++ String.ofList (decimal n)
  | .nonHex c => "object id contains non-hex character '" ++ c.toString ++ "'"

namespace ObjectId

def text (id : ObjectId) : List Char := Word.text hexAlphabet id

/-- Reads bytes as hexadecimal digits. A byte that is none is reported as the character of that
code. -/
def readBytes : List UInt8 → Except ObjectIdFault (List (Fin 16))
  | [] => .ok []
  | b :: rest =>
    let c := Char.ofNat b.toNat
    match hexDigit? c with
    | none => .error (.nonHex c)
    | some d => (readBytes rest).map (d :: ·)

/-- The length is checked in bytes and reported in characters. -/
def read (s : List Char) : Except ObjectIdFault ObjectId := do
  let digits ← if (utf8 s).length = 24 then readBytes (utf8 s) else .error (.length s.length)
  match Word.ofList? digits with
  | some id => .ok id
  | none => .error (.length s.length)

end ObjectId

end RecordFilter.Identifier
