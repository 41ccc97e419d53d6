import RecordFilter.Calendar.Format
import RecordFilter.Coercion.Error

/-!
# Coercion strategies

A strategy makes values of a class of types out of text. The text is an operand without blanks
around it.
-/

namespace RecordFilter

open RecordFilter.Calendar RecordFilter.Identifier RecordFilter.Number RecordFilter.Text

/-- A strategy of the caller's own. It accepts a type by nothing that two types can differ in and
still be the same, since routes are remembered for types up to that. -/
structure OwnStrategy where
  name : String
  accepts : FieldType → Bool
  accepts_congr : ∀ {a b : FieldType}, a.same b = true → accepts a = accepts b
  convert : FieldType → String → Except CoercionError Value

/-- A caller's function for exactly one type. -/
def OwnStrategy.parser (target : FieldType) (parse : String → Except String Value) :
    OwnStrategy where
  name := "custom-parser"
  accepts := fun t => t.same target
  accepts_congr := fun h => FieldType.same_congr h target
  convert := fun t raw => ((parse raw).mapError .stated).mapError (.invalid raw t)

inductive Strategy
  | own (s : OwnStrategy)
  | primitive
  | temporal
  | identifier
  | array
  | enumeration
  | constructor

namespace Strategy

def name : Strategy → String
  | own s => s.name
  | primitive => "primitive"
  | temporal => "temporal"
  | identifier => "identifier"
  | array => "array"
  | enumeration => "enum"
  | constructor => "named-constructor"

/-- The strategies that are always there, in the order in which they are asked. -/
def builtIn : List Strategy := [primitive, temporal, identifier, array, enumeration, constructor]

def isPrimitive : Scalar → Bool
  | .text | .char | .bool | .i8 | .i16 | .i32 | .i64 | .i128 | .u8 | .u16 | .u32 | .u64 | .f32
  | .f64 | .decimal | .bigint | .year => true
  | _ => false

def isTemporal : Scalar → Bool
  | .date | .datetime | .time | .instant | .duration | .period => true
  | _ => false

def isIdentifier : Scalar → Bool
  | .uuid | .ulid | .objectId | .bytes => true
  | _ => false

/-- Whether the strategy is responsible for the type. -/
def accepts : Strategy → FieldType → Bool
  | own s, t => s.accepts t
  | primitive, .scalar s => isPrimitive s
  | temporal, .scalar s => isTemporal s
  | identifier, .scalar s => isIdentifier s
  | array, .array _ => true
  | enumeration, .enumeration _ => true
  | constructor, .custom _ => true
  | _, _ => false

/-! ## Scalars -/

/-- `true` or `false` in any case. -/
def readBool? (s : List Char) : Option Bool :=
  if sameIgnoringCase s ['t', 'r', 'u', 'e'] then some true
  else if sameIgnoringCase s ['f', 'a', 'l', 's', 'e'] then some false
  else none

def readInteger (r : IntegerRange) (s : List Char) : Except Reason Int :=
  (r.read s).mapError .integer

def readFloat (f : BinaryFormat) (s : List Char) : Except Reason Binary :=
  match readBinary f s with
  | some x => .ok x
  | none => .error (if s.isEmpty then .emptyFloat else .badFloat)

/-- A year is an integer of 32 bits in the years of the calendar. -/
def readYear (s : List Char) : Except Reason Int := do
  let n ← readInteger (.signed 32) s
  if -9999 ≤ n ∧ n ≤ 9999 then return n else .error .yearRange

def orElse {α : Type} (reason : Reason) : Option α → Except Reason α
  | some a => .ok a
  | none => .error reason

/-- A timestamp first, then milliseconds. -/
def readInstant (s : List Char) : Except Reason Instant :=
  match readTimestamp? s with
  | some t => .ok t
  | none => do
    let millis ← ((IntegerRange.signed 64).read s).mapError fun _ => .instantFormat
    orElse .instantRange (ofMillis? millis)

/-- The value of a primitive type. -/
def readPrimitive (t : Scalar) (s : List Char) : Except Reason Value :=
  match t with
  | .text => .ok (.text (String.ofList s))
  | .char => match s with
    | [c] => .ok (.char c)
    | _ => .error .oneCharacter
  | .bool => (orElse .trueOrFalse (readBool? s)).map .bool
  | .i8 => (readInteger (.signed 8) s).map .int
  | .i16 => (readInteger (.signed 16) s).map .int
  | .i32 => (readInteger (.signed 32) s).map .int
  | .i64 => (readInteger (.signed 64) s).map .int
  | .i128 => (readInteger (.signed 128) s).map .i128
  | .u8 => (readInteger (.unsigned 8) s).map fun n => .uint n.toNat
  | .u16 => (readInteger (.unsigned 16) s).map fun n => .uint n.toNat
  | .u32 => (readInteger (.unsigned 32) s).map fun n => .uint n.toNat
  | .u64 => (readInteger (.unsigned 64) s).map fun n => .uint n.toNat
  | .f32 => (readFloat .single s).map .f32
  | .f64 => (readFloat .double s).map .f64
  | .decimal => (orElse .badDecimal (Decimal.read s)).map .decimal
  | .bigint => ((readBig s).mapError .integer).map .bigint
  | .year => (readYear s).map .year
  | _ => .error .notPrimitive

/-- The value of a temporal type. -/
def readTemporal (t : Scalar) (s : List Char) : Except Reason Value :=
  match t with
  | .date => (orElse .dateFormat (readDate? s)).map .date
  | .datetime => (orElse .dateTimeFormat (readDateTime? s)).map .datetime
  | .time => (orElse .timeFormat (readTime? s)).map .time
  | .instant => (readInstant s).map .instant
  | .duration => ((Duration.read s).mapError .amount).map .duration
  | .period => ((Period.read s).mapError .amount).map .period
  | _ => .error .notTemporal

/-- The value of an identifier type, or the bytes of the text. -/
def readIdentifier (t : Scalar) (s : List Char) : Except Reason Value :=
  match t with
  | .uuid => (orElse .badUuid (Uuid.read s)).map .uuid
  | .ulid => ((Ulid.read s).mapError .ulid).map .ulid
  | .objectId => ((ObjectId.read s).mapError .objectId).map .objectId
  | .bytes => .ok (.bytes (utf8 s))
  | _ => .error .notIdentifier

/-! ## Converting -/

/-- The value that a strategy which is always there gives for a type that is no array, or the
reason why there is none. -/
def read (s : Strategy) (target : FieldType) (raw : String) : Except Reason Value :=
  match s, target with
  -- A strategy of the caller's own is not asked here: it converts by itself.
  | own _, _ => .error .noStrategy
  | primitive, .scalar t => readPrimitive t raw.toList
  | primitive, _ => .error .notPrimitive
  | temporal, .scalar t => readTemporal t raw.toList
  | temporal, _ => .error .notTemporal
  | identifier, .scalar t => readIdentifier t raw.toList
  | identifier, _ => .error .notIdentifier
  | array, _ => .error .notArray
  | enumeration, .enumeration m =>
    (orElse .noMember (m.member? raw)).map fun member => .enumMember (m.valueOf member)
  | enumeration, _ => .error .notEnumeration
  | constructor, .custom c => (c.construct raw).mapError .stated
  | constructor, _ => .error .notCustom

/-- The parts of an array operand. -/
def arrayParts (raw : String) : List String := (raw.toList.splitOn ',').map String.ofList

/-- Converts the operand by this strategy. `element` converts one part of an array. -/
def convert (element : String → Except CoercionError Value) (s : Strategy) (target : FieldType)
    (raw : String) : Except CoercionError Value :=
  match s, target with
  | own s, _ => s.convert target raw
  | array, .array _ => ((arrayParts raw).mapM element).map .list
  | _, _ => (s.read target raw).mapError (.invalid raw target)

end Strategy

end RecordFilter
