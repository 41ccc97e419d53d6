import RecordFilter.Schema.FieldType
import RecordFilter.Text.Blank
import RecordFilter.Text.Lower
import RecordFilter.Text.Pattern

/-!
# Enumeration candidates

The members that a keyword may mean: those whose names contain it, case ignored, and those whose
own predicate takes it.
-/

namespace RecordFilter.EnumModel

open RecordFilter.Text

/-- The name contains the text in small letters, case ignored. -/
def nameContains (needle : List Char) (m : EnumMember) : Bool :=
  (Pattern.firstPlace needle (lower m.name.toList)).isSome

/-- The candidates in the order of their declaration. -/
def candidates (model : EnumModel) (keyword : String) : List EnumMember :=
  let trimmed := trim keyword
  let needle := lower trimmed.toList
  model.members.filter fun m => nameContains needle m || m.isCandidate trimmed

/-- The candidates as values. -/
def candidateValues (model : EnumModel) (keyword : String) : List EnumValue :=
  (model.candidates keyword).map model.valueOf

end RecordFilter.EnumModel
