import RecordFilter.Identifier.Word
import RecordFilter.Text.Ascii

/-!
# UUIDs

128 bits, written as 32 hexadecimal digits in groups of 8, 4, 4, 4 and 12.
-/

namespace RecordFilter.Identifier

open RecordFilter.Text

abbrev Uuid := Word 16 32

namespace Uuid

def groupLengths : List Nat := [8, 4, 4, 4, 12]

/-- Cuts a list into pieces of the given lengths. What is left over is dropped. -/
def cut {α : Type} : List Nat → List α → List (List α)
  | [], _ => []
  | n :: ns, l => l.take n :: cut ns (l.drop n)

/-- Small letters, with a hyphen between two groups. -/
def text (id : Uuid) : List Char :=
  List.intercalate ['-'] (cut groupLengths (Word.text hexAlphabet id))

/-- 32 digits without hyphens. -/
def readSimple (s : List Char) : Option Uuid := (hexDigits? s).bind Word.ofList?

/-- Five groups of the right lengths between hyphens. -/
def readHyphenated (s : List Char) : Option Uuid :=
  let groups := s.splitOn '-'
  if groups.map List.length = groupLengths then readSimple groups.flatten else none

/-- What stands before the digits of a UUID that is written as a URN. -/
def urnMark : List Char := ['u', 'r', 'n', ':', 'u', 'u', 'i', 'd', ':']

/-- Reads one of the four forms: plain, hyphenated, hyphenated in braces, hyphenated behind
`urn:uuid:` in any case. -/
def read (s : List Char) : Option Uuid :=
  match s with
  | '\x7b' :: rest =>
    if rest.getLast? = some '\x7d' then readHyphenated rest.dropLast else none
  | _ =>
    if sameIgnoringCase (s.take urnMark.length) urnMark then
      readHyphenated (s.drop urnMark.length)
    else (readSimple s).or (readHyphenated s)

end Uuid

end RecordFilter.Identifier
