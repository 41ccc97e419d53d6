import RecordFilter.Schema.FieldType

/-!
# Schemas

A schema describes the records that a filter selects: named fields, some of which lead on into a
nested schema, and aliases for paths. A schema is built from its fields and aliases once, and the
build reports the first rule that they break.
-/

namespace RecordFilter

inductive Cardinality
  | single
  | many
  deriving DecidableEq, Repr

def Cardinality.text : Cardinality → String
  | single => "single"
  | many => "many"

inductive FieldKind
  | scalar
  | embedded
  | association
  | elementCollection
  deriving DecidableEq, Repr

namespace FieldKind

def text : FieldKind → String
  | scalar => "scalar"
  | embedded => "embedded"
  | association => "association"
  | elementCollection => "element-collection"

/-- Kinds that a selector has to end on. -/
def isTerminal : FieldKind → Bool
  | scalar | elementCollection => true
  | embedded | association => false

/-- Kinds that lead into a nested schema. -/
def isNested (k : FieldKind) : Bool := !k.isTerminal

/-- Only an association leaves the cardinality open. -/
def allows : FieldKind → Cardinality → Bool
  | scalar, c | embedded, c => c == .single
  | elementCollection, c => c == .many
  | association, _ => true

end FieldKind

/-- A field whose nested schema, if it has one, is of the type `σ`. -/
structure FieldOf (σ : Type) where
  name : String
  /-- The name in the store, where it is another one. -/
  storedAs : Option String := none
  declared : FieldType
  cardinality : Cardinality
  kind : FieldKind
  nested : Option σ

inductive Schema
  | mk (name : String) (fields : List (FieldOf Schema)) (aliases : List (String × String))

abbrev Field := FieldOf Schema

def FieldOf.storageName {σ : Type} (f : FieldOf σ) : String := f.storedAs.getD f.name

namespace Schema

def name : Schema → String
  | mk name _ _ => name

/-- The fields in the order of their declaration. -/
def fields : Schema → List Field
  | mk _ fields _ => fields

/-- The aliases and their targets, sorted by alias. -/
def aliases : Schema → List (String × String)
  | mk _ _ aliases => aliases

def field? (s : Schema) (name : String) : Option Field := s.fields.find? (·.name == name)

/-- The path that an alias stands for. -/
def alias? (s : Schema) (name : String) : Option String := s.aliases.lookup name

end Schema

/-! ## Building -/

/-- A rule that the fields or aliases of a schema break. -/
inductive SchemaError
  | duplicateField (schema field : String)
  | nestedMissing (schema field : String) (kind : FieldKind)
  | nestedUnexpected (schema field : String) (kind : FieldKind)
  | cardinality (schema field : String) (kind : FieldKind) (found : Cardinality)
  | elementType (schema field : String) (found : FieldType)
  | aliasShadows (schema name : String)
  | aliasTarget (schema name target : String)

def SchemaError.message : SchemaError → String
  | duplicateField schema field =>
    "schema '" ++ schema ++ "' declares field '" ++ field ++ "' more than once"
  | nestedMissing schema field kind =>
    "field '" ++ schema ++ "." ++ field ++ "' of kind " ++ kind.text ++ " requires a nested schema"
  | nestedUnexpected schema field kind =>
    "field '" ++ schema ++ "." ++ field ++ "' of kind " ++ kind.text ++
      " must not carry a nested schema"
  | cardinality schema field kind found =>
    "field '" ++ schema ++ "." ++ field ++ "' of kind " ++ kind.text ++
      " cannot have cardinality " ++ found.text
  | elementType schema field found =>
    "element collection '" ++ schema ++ "." ++ field ++ "' has non-scalar element type " ++
      found.text
  | aliasShadows schema name =>
    "alias '" ++ name ++ "' on schema '" ++ schema ++ "' shadows a declared field"
  | aliasTarget schema name target =>
    "alias '" ++ name ++ "' on schema '" ++ schema ++ "' points at unknown selector '" ++ target ++
      "'"

/-- A name with what it stands for, put in its place. An earlier entry of the name gives way. -/
def insertAlias (name target : String) : List (String × String) → List (String × String)
  | [] => [(name, target)]
  | (n, t) :: rest =>
    if name < n then (name, target) :: (n, t) :: rest
    else if name = n then (name, target) :: rest
    else (n, t) :: insertAlias name target rest

/-- The aliases sorted by name, the last target of a name winning. -/
def sortAliases (aliases : List (String × String)) : List (String × String) :=
  aliases.foldl (fun table a => insertAlias a.1 a.2 table) []

namespace Schema

/-- The rules for one field: nesting, then cardinality, then the type of elements. -/
def checkField (schema : String) (f : Field) : Except SchemaError Unit :=
  if f.kind.isNested ∧ f.nested.isNone then .error (.nestedMissing schema f.name f.kind)
  else if !f.kind.isNested ∧ f.nested.isSome then .error (.nestedUnexpected schema f.name f.kind)
  else if !f.kind.allows f.cardinality then
    .error (.cardinality schema f.name f.kind f.cardinality)
  else if f.kind = .elementCollection ∧ !f.declared.isElement then
    .error (.elementType schema f.name f.declared)
  else .ok ()

/-- The fields in order; `seen` are the names before. -/
def checkFields (schema : String) (seen : List String) : List Field → Except SchemaError Unit
  | [] => .ok ()
  | f :: rest =>
    if seen.contains f.name then .error (.duplicateField schema f.name)
    else do
      checkField schema f
      checkFields schema (f.name :: seen) rest

/-- The first segment of a path. -/
def headSegment (path : String) : String := String.ofList (path.toList.takeWhile (· != '.'))

/-- An alias has a name of its own and starts with a name that the schema knows. -/
def checkAlias (schema : String) (fields : List Field) (aliases : List (String × String))
    (name target : String) : Except SchemaError Unit :=
  let head := headSegment target
  if fields.any (·.name == name) then .error (.aliasShadows schema name)
  else if head.isEmpty ∨ !(fields.any (·.name == head) || aliases.any (·.1 == head)) then
    .error (.aliasTarget schema name target)
  else .ok ()

/-- Builds a schema from fields and aliases in the order of their declaration. -/
def build (name : String) (fields : List Field) (aliases : List (String × String)) :
    Except SchemaError Schema := do
  let sorted := sortAliases aliases
  checkFields name [] fields
  sorted.forM fun a => checkAlias name fields sorted a.1 a.2
  return mk name fields sorted

end Schema

end RecordFilter
