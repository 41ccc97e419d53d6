import RecordFilter.Compile.Basic
import RecordFilter.FreeText.Heuristic

/-!
# Free text

A keyword searches every field of a schema that its type makes searchable. Embedded groups are
always entered, and of the associations only those of the root that the caller names. The search is
a disjunction with one term for each field that the keyword suits.
-/

namespace RecordFilter

open RecordFilter.Text

/-- A searchable field and the way to it. -/
structure Target where
  path : Path
  heuristic : Heuristic

/-- The associations that a keyword may follow: a set, in order and without repetitions. -/
def insertName (name : String) : List String → List String
  | [] => [name]
  | n :: rest =>
    if name < n then name :: n :: rest
    else if name = n then n :: rest
    else n :: insertName name rest

def nameSet (names : List String) : List String := names.foldl (fun set n => insertName n set) []

namespace Schema

/-- The searchable fields at and below `schema`, reached by the segments `way`. `follows` tells
which associations of this schema are entered, and none is below it. The number is how many more
segments a path may have. -/
def targetsFrom (root : String) :
    Nat → Schema → (String → Bool) → List Segment → List Target
  | 0, _, _, _ => []
  | room + 1, schema, follows, way =>
    let enter (f : Field) : List Target := match f.nested with
      | some nested => targetsFrom root room nested (fun _ => false) (way ++ [f.segment])
      | none => []
    schema.fields.flatMap fun f =>
      match f.kind with
      | .scalar | .elementCollection =>
        match Heuristic.ofType? f.declared with
        | some h => [⟨⟨root, way ++ [f.segment], f.declared⟩, h⟩]
        | none => []
      | .embedded => enter f
      | .association => if follows f.name then enter f else []

/-- The fields that a keyword searches, depth first in the order of declaration. -/
def targets (root : Schema) (maxDepth : Nat) (propagate : List String) : List Target :=
  targetsFrom root.name maxDepth root (propagate.contains ·) []

/-- The name is that of an association of the schema. -/
def isAssociation (root : Schema) (name : String) : Bool :=
  match root.field? name with
  | some f => f.kind == .association
  | none => false

/-- The names that are no association of the root. -/
def unknownNames (root : Schema) (propagate : List String) : List String :=
  propagate.filter fun n => !root.isAssociation n

end Schema

namespace Target

/-- What the keyword becomes for the target. -/
def outcome (t : Target) (coercer : Coercer) (keyword : String) : Heuristic.Outcome :=
  t.heuristic.apply coercer keyword t.path.terminal

/-- The term that the target adds to the search, if the keyword suits it. -/
def term? (t : Target) (coercer : Coercer) (keyword : String) : Option Expr :=
  match t.outcome coercer keyword with
  | .term test operand => some (.check ⟨t.path, test, operand⟩)
  | .declined | .failed _ => none

end Target

/-- The search for a keyword in the given targets. A blank keyword finds nothing. -/
def searchTargets (coercer : Coercer) (keyword : String) (targets : List Target) : Expr :=
  if (trim keyword).isEmpty then .never
  else .or (targets.filterMap (·.term? coercer (trim keyword)))

namespace Compiler

/-- The fields that keywords search under the settings. -/
def targets (c : Compiler) (root : Schema) (propagate : List String) : List Target :=
  root.targets c.settings.maxDepth.toNat propagate

/-- The search for a keyword in a schema. -/
def traverse (c : Compiler) (root : Schema) (propagate : List String) (keyword : String) : Expr :=
  searchTargets c.coercer keyword (c.targets root propagate)

end Compiler

end RecordFilter
