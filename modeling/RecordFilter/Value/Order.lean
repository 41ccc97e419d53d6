import RecordFilter.Value.Basic

/-!
# Order and equality of values

Values compare only with values of their own kind. Null, lists, bytes and periods have no order,
and members of two enumerations have none between them. Equality goes by magnitude where the same
number or moment can be held in several ways.
-/

namespace RecordFilter

open RecordFilter.Calendar RecordFilter.Identifier RecordFilter.Number

def EnumValue.compare? (a b : EnumValue) : Option Ordering :=
  if a.enumName = b.enumName then some (compare a.ordinal b.ordinal) else none

namespace Value

/-- How two values stand to each other, if they can be compared. -/
def compare? : Value → Value → Option Ordering
  | bigint a, bigint b => some (compare a b)
  | bool a, bool b => some (compare a b)
  | char a, char b => some (compare a.toNat b.toNat)
  | date a, date b => some (a.compare b)
  | datetime a, datetime b => some (a.compare b)
  | decimal a, decimal b => some (a.compare b)
  | duration a, duration b => some (a.compare b)
  | enumMember a, enumMember b => a.compare? b
  | f32 a, f32 b => a.compare? b
  | f64 a, f64 b => a.compare? b
  | instant a, instant b => some (a.compare b)
  | int a, int b => some (compare a b)
  | i128 a, i128 b => some (compare a b)
  | objectId a, objectId b => some (Word.compare a b)
  | text a, text b => some (compare a b)
  | time a, time b => some (a.compare b)
  | uint a, uint b => some (compare a b)
  | ulid a, ulid b => some (Word.compare a b)
  | uuid a, uuid b => some (Word.compare a b)
  | year a, year b => some (compare a b)
  | _, _ => none

mutual

/-- Whether two values are the same. Null is the same as null, and no number differs from itself
except the one that is not a number. -/
def same : Value → Value → Bool
  | bigint a, bigint b => a == b
  | bool a, bool b => a == b
  | bytes a, bytes b => a == b
  | char a, char b => a == b
  | date a, date b => a == b
  | datetime a, datetime b => a == b
  | decimal a, decimal b => a.compare b == .eq
  | duration a, duration b => a == b
  | enumMember a, enumMember b => a == b
  | f32 a, f32 b => a.equal b
  | f64 a, f64 b => a.equal b
  | instant a, instant b => a.compare b == .eq
  | int a, int b => a == b
  | i128 a, i128 b => a == b
  | list a, list b => sameItems a b
  | null, null => true
  | objectId a, objectId b => a == b
  | period a, period b => a == b
  | text a, text b => a == b
  | time a, time b => a == b
  | uint a, uint b => a == b
  | ulid a, ulid b => a == b
  | uuid a, uuid b => a == b
  | year a, year b => a == b
  | _, _ => false

/-- Whether two lists have the same items in the same order. -/
def sameItems : List Value → List Value → Bool
  | [], [] => true
  | a :: as, b :: bs => same a b && sameItems as bs
  | _, _ => false

end

/-- Equality as a filter tests it: null equals nothing. -/
def equals (a b : Value) : Bool := !a.isNull && !b.isNull && same a b

end Value

end RecordFilter
