import RecordFilter.Calendar.Amount
import RecordFilter.Identifier.ObjectId
import RecordFilter.Identifier.Ulid
import RecordFilter.Number.Integer
import RecordFilter.Schema.FieldType

/-!
# Why an operand does not fit

The reasons for which a text is no value of a type, and the errors that a comparison reports.
-/

namespace RecordFilter

open RecordFilter.Calendar RecordFilter.Identifier RecordFilter.Number

/-- Why a text was not made into a value. -/
inductive Reason
  | noStrategy
  | notPrimitive
  | notTemporal
  | notIdentifier
  | notArray
  | notEnumeration
  | notCustom
  | oneCharacter
  | trueOrFalse
  | integer (fault : IntegerFault)
  | emptyFloat
  | badFloat
  | badDecimal
  | yearRange
  | dateFormat
  | dateTimeFormat
  | timeFormat
  | instantFormat
  | instantRange
  | amount (fault : AmountFault)
  | badUuid
  | ulid (fault : UlidFault)
  | objectId (fault : ObjectIdFault)
  | noMember
  /-- The words of a caller's own function. -/
  | stated (reason : String)

def Reason.message : Reason → String
  | noStrategy => "no coercion strategy accepts this type"
  | notPrimitive => "not a primitive type"
  | notTemporal => "not a temporal type"
  | notIdentifier => "not an identifier type"
  | notArray => "not an array type"
  | notEnumeration => "not an enum type"
  | notCustom => "not a custom type"
  | oneCharacter => "expected exactly one character"
  | trueOrFalse => "expected 'true' or 'false'"
  | integer fault => fault.message
  | emptyFloat => "cannot parse float from empty string"
  | badFloat => "invalid float literal"
  | badDecimal => "invalid decimal"
  | yearRange => "year out of range"
  | dateFormat => "unrecognized date format"
  | dateTimeFormat => "unrecognized date-time format"
  | timeFormat => "unrecognized time format"
  | instantFormat => "expected RFC 3339 or epoch milliseconds"
  | instantRange => "timestamp was not in range"
  | amount fault => fault.message
  | badUuid => "invalid uuid"
  | ulid fault => fault.message
  | objectId fault => fault.message
  | noMember => "no member with this name"
  | stated reason => reason

inductive CoercionError
  | invalid (raw : String) (target : FieldType) (reason : Reason)
  | notApplicable (op : String) (target : FieldType)
  | arity (op expected : String) (found : Nat)

/-- An operand that is no value of its type, without the reason. -/
def CoercionError.refusal (raw : String) (target : FieldType) : String :=
  "cannot coerce '" ++ raw ++ "' to " ++ target.text

def CoercionError.message : CoercionError → String
  | invalid raw target reason => refusal raw target ++ ": " ++ reason.message
  | notApplicable op target => "operator '" ++ op ++ "' is not applicable to " ++ target.text
  | arity op expected found =>
    "operator '" ++ op ++ "' expects " ++ expected ++ " argument(s), found " ++ toString found

end RecordFilter
