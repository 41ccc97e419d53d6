import RecordFilter.Coercion.Coercer
import RecordFilter.Expr.Basic
import RecordFilter.Schema.Candidate

/-!
# Keyword heuristics

How a keyword is tried on a field, by the type of the field. A heuristic gives a test, or declines
a keyword that does not look like a value of the type, or fails when the value cannot be made.
-/

namespace RecordFilter

open RecordFilter.Identifier RecordFilter.Text

inductive Heuristic
  | substring
  | identifier (s : Scalar)
  | boolLiteral
  | year
  | enumCandidates
  | numeric
  deriving DecidableEq, Repr

namespace Heuristic

def name : Heuristic → String
  | substring => "substring"
  | identifier _ => "identifier"
  | boolLiteral => "boolean"
  | year => "year"
  | enumCandidates => "enum-candidates"
  | numeric => "numeric"

/-- The heuristic for a type, and none for a type that keywords do not search. -/
def ofType? (t : FieldType) : Option Heuristic :=
  match t.family with
  | .textual => some .substring
  | .identifier => t.scalar?.map .identifier
  | .bool => some .boolLiteral
  | .year => some .year
  | .enumeration => some .enumCandidates
  | .numeric => some .numeric
  | .character | .temporal | .bytes | .collection | .record | .custom => none

/-! ## What keywords look like -/

/-- Hexadecimal digits in groups of 8, 4, 4, 4 and 12 between hyphens. -/
def looksLikeUuid (s : List Char) : Bool :=
  let groups := s.splitOn '-'
  groups.map List.length == Uuid.groupLengths && groups.all (·.all isHexDigit)

/-- 26 digits of base 32, the first one at most 7. -/
def looksLikeUlid (s : List Char) : Bool :=
  s.length == 26 && s.all (fun c => (Ulid.digit? c).isSome) &&
    (s.head?.any fun c => '0' ≤ c && c ≤ '7')

def looksLikeObjectId (s : List Char) : Bool := s.length == 24 && s.all isHexDigit

/-- Four decimal digits of any script. -/
def looksLikeYear (s : List Char) : Bool := s.length == 4 && s.all isAnyDigit

def dropSign : List Char → List Char
  | '+' :: s => s
  | '-' :: s => s
  | s => s

/-- Decimal digits of any script with an optional sign and at most one point, which is not at the
end. -/
def looksNumeric (s : List Char) : Bool :=
  let body := dropSign s
  match body.dropWhile isAnyDigit with
  | [] => !body.isEmpty
  | '.' :: places => !places.isEmpty && places.all isAnyDigit
  | _ => false

/-- The keyword looks like an identifier of the scalar type. -/
def looksLikeIdentifier : Scalar → List Char → Bool
  | .uuid, s => looksLikeUuid s
  | .ulid, s => looksLikeUlid s
  | .objectId, s => looksLikeObjectId s
  | _, _ => false

/-! ## Terms -/

/-- What a keyword becomes for one field. -/
inductive Outcome
  | term (test : Test) (operand : Operand)
  | declined
  | failed (e : CoercionError)

/-- Equality with the value of the keyword, if it has one. -/
def equality (coercer : Coercer) (keyword : String) (t : FieldType) : Outcome :=
  match coercer.convert t keyword with
  | .ok v => .term .eq (.value ⟨v, t⟩)
  | .error e => .failed e

/-- The candidates of an enumeration. -/
def membership (keyword : String) : FieldType → Outcome
  | .enumeration model =>
    match model.candidateValues keyword with
    | [] => .declined
    | candidates => .term .isIn (.list (candidates.map fun e =>
        ⟨.enumMember e, .enumeration model⟩))
  | _ => .declined

/-- The keyword looks like a value of the type, and is converted to it. -/
def converts (h : Heuristic) (keyword : String) : Bool :=
  match h with
  | identifier s => looksLikeIdentifier s keyword.toList
  | year => looksLikeYear keyword.toList
  | numeric => looksNumeric keyword.toList
  | substring | boolLiteral | enumCandidates => false

/-- Tries a keyword without blanks around it on a field of type `t`. -/
def apply (h : Heuristic) (coercer : Coercer) (keyword : String) (t : FieldType) : Outcome :=
  match h with
  | substring => .term .like (.pattern (Pattern.containing keyword))
  | boolLiteral =>
    match Strategy.readBool? keyword.toList with
    | some b => .term .eq (.value ⟨.bool b, t⟩)
    | none => .declined
  | enumCandidates => membership keyword t
  | identifier _ | year | numeric =>
    if h.converts keyword then equality coercer keyword t else .declined

end Heuristic

end RecordFilter
