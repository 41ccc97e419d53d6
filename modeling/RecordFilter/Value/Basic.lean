import RecordFilter.Calendar.DateTime
import RecordFilter.Calendar.Duration
import RecordFilter.Calendar.Period
import RecordFilter.Identifier.ObjectId
import RecordFilter.Identifier.Ulid
import RecordFilter.Identifier.Uuid
import RecordFilter.Number.BinaryText
import RecordFilter.Number.Decimal
import RecordFilter.Text.Utf8

/-!
# Values

What an operand or a field of a row can be, and the one text in which each value is written. The
text is made to be read again as a value of the same type.
-/

namespace RecordFilter

open RecordFilter.Calendar RecordFilter.Identifier RecordFilter.Number RecordFilter.Text

/-- A member of an enumeration. Members of one enumeration compare by their ordinals. -/
structure EnumValue where
  enumName : String
  member : String
  ordinal : Nat
  deriving DecidableEq, Repr

inductive Value
  | bigint (n : Int)
  | bool (b : Bool)
  | bytes (bs : List UInt8)
  | char (c : Char)
  | date (d : Date)
  | datetime (t : DateTime)
  | decimal (x : Decimal)
  | duration (d : Duration)
  | enumMember (e : EnumValue)
  | f32 (x : Binary)
  | f64 (x : Binary)
  | instant (t : Instant)
  | int (n : Int)
  | i128 (n : Int)
  | list (items : List Value)
  | null
  | objectId (id : ObjectId)
  | period (p : Period)
  | text (s : String)
  | time (t : TimeOfDay)
  | uint (n : Nat)
  | ulid (id : Ulid)
  | uuid (id : Uuid)
  | year (y : Int)
  deriving Repr, Inhabited

namespace Value

def isNull : Value → Bool
  | null => true
  | _ => false

def isText : Value → Bool
  | text _ => true
  | _ => false

def asText? : Value → Option String
  | text s => some s
  | _ => none

def asEnum? : Value → Option EnumValue
  | enumMember e => some e
  | _ => none

/-- The name of the kind of value. -/
def label : Value → String
  | bigint _ => "bigint"
  | bool _ => "bool"
  | bytes _ => "bytes"
  | char _ => "char"
  | date _ => "date"
  | datetime _ => "datetime"
  | decimal _ => "decimal"
  | duration _ => "duration"
  | enumMember _ => "enum"
  | f32 _ => "f32"
  | f64 _ => "f64"
  | instant _ => "instant"
  | int _ => "int"
  | i128 _ => "i128"
  | list _ => "list"
  | null => "null"
  | objectId _ => "object_id"
  | period _ => "period"
  | text _ => "text"
  | time _ => "time"
  | uint _ => "uint"
  | ulid _ => "ulid"
  | uuid _ => "uuid"
  | year _ => "year"

/-! ## The text of a value -/

/-- The text of a value that is no list. Only an instant can fail to have one. -/
def plainChars? : Value → Option (List Char)
  | bigint n | int n | i128 n => some (signedDecimal n)
  | bool b => some (if b then ['t', 'r', 'u', 'e'] else ['f', 'a', 'l', 's', 'e'])
  | bytes bs => some (readable bs)
  | char c => some [c]
  | date d => some d.text
  | datetime t => some t.text
  | decimal x => some x.text
  | duration d => some d.text
  | enumMember e => some e.member.toList
  | f32 x => some (x.text .single)
  | f64 x => some (x.text .double)
  | instant t => t.text?
  | list _ | null => some []
  | objectId id => some id.text
  | period p => some p.text
  | text s => some s.toList
  | time t => some t.text
  | uint n => some (Text.decimal n)
  | ulid id => some id.text
  | uuid id => some id.text
  | year y => some (Date.yearText y)

mutual

/-- The text of a value. The items of a list are separated by commas. -/
def chars? : Value → Option (List Char)
  | list items => (itemChars? items).map fun parts => List.intercalate [','] parts
  | v => v.plainChars?

/-- The texts of the items. -/
def itemChars? : List Value → Option (List (List Char))
  | [] => some []
  | v :: rest => (chars? v).bind fun s => (itemChars? rest).map (s :: ·)

end

/-- The text of a value, and none where it holds an instant that cannot be written. -/
def text? (v : Value) : Option String := v.chars?.map String.ofList

end Value

end RecordFilter
