import RecordFilter.Number.Word
import RecordFilter.Schema.Basic

/-!
# Paths

A selector names a field by the dotted names on the way to it. Resolving it walks through a schema:
embedded groups and associations lead on, a scalar or an element collection ends the path, and an
alias is replaced by the path that it stands for. The number of steps is limited, since aliases may
lead in a circle. Limit and steps are words of 64 bits, so no count of steps exceeds the greatest
limit.
-/

namespace RecordFilter

open RecordFilter.Number

inductive SegmentKind
  | scalar
  | embedded
  | association (c : Cardinality)
  | elementCollection
  deriving DecidableEq, Repr

namespace SegmentKind

/-- The name of the kind; an association's name tells its cardinality. -/
def text : SegmentKind → String
  | scalar => "scalar"
  | embedded => "embedded"
  | association c => "association:" ++ c.text
  | elementCollection => "element-collection"

/-- Segments that a relational store reaches through a join. -/
def isJoin : SegmentKind → Bool
  | association _ | elementCollection => true
  | scalar | embedded => false

/-- Segments that can lead from one record to several values. -/
def isMany : SegmentKind → Bool
  | association .many | elementCollection => true
  | association .single | scalar | embedded => false

theorem isJoin_of_isMany {k : SegmentKind} (h : k.isMany = true) : k.isJoin = true := by
  cases k <;> simp_all [isMany, isJoin]

end SegmentKind

structure Segment where
  name : String
  storageName : String
  kind : SegmentKind
  deriving DecidableEq, Repr

namespace FieldOf

variable {σ : Type}

def segmentKind (f : FieldOf σ) : SegmentKind :=
  match f.kind with
  | .scalar => .scalar
  | .embedded => .embedded
  | .association => .association f.cardinality
  | .elementCollection => .elementCollection

def segment (f : FieldOf σ) : Segment := ⟨f.name, f.storageName, f.segmentKind⟩

end FieldOf

/-- A path from the record that `owner` describes to a value of type `terminal`. -/
structure Path where
  owner : String
  segments : List Segment
  terminal : FieldType

namespace Path

def hasJoin (p : Path) : Bool := p.segments.any (·.kind.isJoin)

/-- One record can have several values at the path. -/
def isMany (p : Path) : Bool := p.segments.any (·.kind.isMany)

/-- The names on the way, joined by dots. -/
def dotted (p : Path) : String := ".".intercalate (p.segments.map (·.name))

/-- The names in the store on the way, joined by dots. -/
def storagePath (p : Path) : String := ".".intercalate (p.segments.map (·.storageName))

end Path

/-! ## Resolving -/

inductive PathError
  | unknownField (field owner : String)
  | notTerminal (field owner : String) (kind : FieldKind)
  | unterminated (field owner : String) (kind : FieldKind)
  | depthExceeded (max : UInt64)
  | emptySegment (selector : String)
  /-- The steps are as many as a word can count, and one more is to be made. A walk that comes here
  stops without an answer. -/
  | overflow
  deriving DecidableEq, Repr

def PathError.message : PathError → String
  | unknownField field owner => "unknown field '" ++ field ++ "' on " ++ owner
  | notTerminal field owner kind =>
    kind.text ++ " field '" ++ field ++ "' on " ++ owner ++ " must be the last segment"
  | unterminated field owner kind =>
    "selector ends on " ++ kind.text ++ " field '" ++ field ++ "' of " ++ owner ++
      "; a scalar terminal is required"
  | depthExceeded max =>
    "selector exceeds the maximum depth of " ++ toString max ++ " segments"
  | emptySegment selector => "selector '" ++ selector ++ "' contains an empty segment"
  | overflow => "attempt to add with overflow"

/-- What a walk comes to that is not at its end after as many steps as the limit allows. The step
that exceeds the greatest limit cannot be counted. -/
def PathError.beyond (max : UInt64) : PathError :=
  if max = greatestWord then overflow else depthExceeded max

/-- The parts between the dots. -/
def dotParts (s : String) : List String := (s.toList.splitOn '.').map String.ofList

/-- The segments of a selector, none of which may be empty. -/
def splitSelector (selector : String) : Except PathError (List String) :=
  let parts := dotParts selector
  if parts.any String.isEmpty then .error (.emptySegment selector) else .ok parts

namespace Schema

/-- Walks from `schema` along the pending names with at most `steps` steps, which are all that are
left of the limit `max`. A name is a field first and an alias second. -/
def walk (max : UInt64) (selector : String) :
    Nat → Schema → List String → Except PathError (List Segment × FieldType)
  | _, _, [] => .error (.emptySegment selector)
  | 0, _, _ :: _ => .error (.beyond max)
  | steps + 1, schema, name :: rest =>
    match schema.field? name with
    | none =>
      match schema.alias? name with
      | none => .error (.unknownField name schema.name)
      | some target =>
        match splitSelector target with
        | .error e => .error e
        | .ok expansion => walk max selector steps schema (expansion ++ rest)
    | some f =>
      if f.kind.isTerminal then
        if rest.isEmpty then .ok ([f.segment], f.declared)
        else .error (.notTerminal f.name schema.name f.kind)
      else
        match rest, f.nested with
        | _ :: _, some nested =>
          (walk max selector steps nested rest).map fun r => (f.segment :: r.1, r.2)
        | _, _ => .error (.unterminated f.name schema.name f.kind)

/-- The path that a selector names, found in at most `max` steps. -/
def resolve (root : Schema) (max : UInt64) (selector : String) : Except PathError Path := do
  let parts ← splitSelector selector
  let (segments, terminal) ← walk max selector max.toNat root parts
  return ⟨root.name, segments, terminal⟩

end Schema

end RecordFilter
