/-!
# Words in any case

Keywords of formats are ASCII words that may be written in any case.
-/

namespace RecordFilter.Text

/-- Small letters for the letters of ASCII. Every other character stays as it is. -/
def asciiLower (s : List Char) : List Char := s.map Char.toLower

/-- The texts are equal if the case of the letters of ASCII is ignored. -/
def sameIgnoringCase (a b : List Char) : Bool := asciiLower a == asciiLower b

theorem sameIgnoringCase_iff {a b : List Char} :
    sameIgnoringCase a b = true ↔ asciiLower a = asciiLower b := by
  simp [sameIgnoringCase]

end RecordFilter.Text
