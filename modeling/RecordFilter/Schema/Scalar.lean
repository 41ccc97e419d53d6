import RecordFilter.Value.Basic

/-!
# Scalar types

The closed set of scalar types that a field can be declared with, and what is known about each: its
name, its family, whether its values are ordered, and whether ordering works on whole days.
-/

namespace RecordFilter

/-- Coarse classes of types. They decide how a keyword searches a field. -/
inductive Family
  | textual
  | character
  | bool
  | numeric
  | temporal
  | year
  | identifier
  | bytes
  | enumeration
  | collection
  | record
  | custom
  deriving DecidableEq, Repr

inductive Scalar
  | text
  | char
  | bool
  | i8
  | i16
  | i32
  | i64
  | i128
  | u8
  | u16
  | u32
  | u64
  | f32
  | f64
  | decimal
  | bigint
  | date
  | datetime
  | time
  | instant
  | duration
  | period
  | year
  | uuid
  | ulid
  | objectId
  | bytes
  deriving DecidableEq, Repr

namespace Scalar

def all : List Scalar :=
  [.text, .char, .bool, .i8, .i16, .i32, .i64, .i128, .u8, .u16, .u32, .u64, .f32, .f64, .decimal,
    .bigint, .date, .datetime, .time, .instant, .duration, .period, .year, .uuid, .ulid, .objectId,
    .bytes]

theorem mem_all (s : Scalar) : s ∈ all := by cases s <;> decide

def name : Scalar → String
  | text => "text"
  | char => "char"
  | bool => "bool"
  | i8 => "i8"
  | i16 => "i16"
  | i32 => "i32"
  | i64 => "i64"
  | i128 => "i128"
  | u8 => "u8"
  | u16 => "u16"
  | u32 => "u32"
  | u64 => "u64"
  | f32 => "f32"
  | f64 => "f64"
  | decimal => "decimal"
  | bigint => "bigint"
  | date => "date"
  | datetime => "datetime"
  | time => "time"
  | instant => "instant"
  | duration => "duration"
  | period => "period"
  | year => "year"
  | uuid => "uuid"
  | ulid => "ulid"
  | objectId => "object_id"
  | bytes => "bytes"

def ofName? (name : String) : Option Scalar := all.find? (·.name == name)

theorem ofName?_name (s : Scalar) : ofName? s.name = some s := by cases s <;> decide

def family : Scalar → Family
  | text => .textual
  | char => .character
  | bool => .bool
  | i8 | i16 | i32 | i64 | i128 | u8 | u16 | u32 | u64 | f32 | f64 | decimal | bigint => .numeric
  | date | datetime | time | instant | duration | period => .temporal
  | year => .year
  | uuid | ulid | objectId => .identifier
  | bytes => .bytes

/-- Periods and bytes have no order. -/
def isOrdered : Scalar → Bool
  | period | bytes => false
  | _ => true

/-- Types with a calendar day: ordering against them selects a range of days. -/
def isWidened : Scalar → Bool
  | date | datetime | instant => true
  | _ => false

def isNumeric (s : Scalar) : Bool := s.family == .numeric

/-- Whether the value is of the kind that operands of this type become. -/
def holds : Scalar → Value → Bool
  | text, .text _ => true
  | char, .char _ => true
  | bool, .bool _ => true
  | i8, .int _ | i16, .int _ | i32, .int _ | i64, .int _ => true
  | i128, .i128 _ => true
  | u8, .uint _ | u16, .uint _ | u32, .uint _ | u64, .uint _ => true
  | f32, .f32 _ => true
  | f64, .f64 _ => true
  | decimal, .decimal _ => true
  | bigint, .bigint _ => true
  | date, .date _ => true
  | datetime, .datetime _ => true
  | time, .time _ => true
  | instant, .instant _ => true
  | duration, .duration _ => true
  | period, .period _ => true
  | year, .year _ => true
  | uuid, .uuid _ => true
  | ulid, .ulid _ => true
  | objectId, .objectId _ => true
  | bytes, .bytes _ => true
  | _, _ => false

end Scalar

end RecordFilter
