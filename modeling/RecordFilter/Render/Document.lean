import RecordFilter.Render.Error

/-!
# Filter documents

An expression as a filter document over dotted storage paths, in the notation of document stores.
Numbers that a document can hold stay numbers; wide and exact numbers become text. A date is
wrapped, and so is the identifier of an object.
-/

namespace RecordFilter

open RecordFilter.Number RecordFilter.Text

/-- A tree of values as documents hold it. -/
inductive Document
  | null
  | bool (b : Bool)
  | integer (n : Int)
  | float (x : Binary)
  | text (s : String)
  | array (items : List Document)
  | object (entries : List (String × Document))
  deriving Repr, Inhabited

namespace Document

/-- Why an expression has no document. -/
inductive Failure
  | mismatch (e : RenderError)
  /-- An instant in it cannot be written. -/
  | unwritable
  deriving DecidableEq, Repr

/-- An object with one entry. -/
def single (key : String) (value : Document) : Document := object [(key, value)]

def textOf (v : Value) : Except Failure String :=
  match v.text? with
  | some s => .ok s
  | none => .error .unwritable

/-- A float that is a number stays one. -/
def ofFloat (x : Binary) (v : Value) : Except Failure Document :=
  if x.isFinite then .ok (float x) else (textOf v).map text

/-- The document of a value that is no list. -/
def ofPlain (v : Value) : Except Failure Document :=
  match v with
  | .null => .ok null
  | .bool b => .ok (bool b)
  | .int n => .ok (integer n)
  | .uint n => .ok (integer n)
  | .year y => .ok (integer y)
  | .f32 x | .f64 x => ofFloat x v
  | .objectId _ => (textOf v).map fun s => single "$oid" (text s)
  | .date _ | .datetime _ | .instant _ => (textOf v).map fun s => single "$date" (text s)
  | _ => (textOf v).map text

mutual

def ofValue : Value → Except Failure Document
  | .list items => (ofValues items).map array
  | v => ofPlain v

def ofValues : List Value → Except Failure (List Document)
  | [] => .ok []
  | v :: rest => (ofValue v).bind fun d => (ofValues rest).map (d :: ·)

end

def ofItems (items : List TypedValue) : Except Failure Document :=
  (ofValues (items.map (·.value))).map array

/-- The key of a test against one value; equality needs none. -/
def comparisonKey? : Test → Option String
  | .ne => some "$ne"
  | .gt => some "$gt"
  | .ge => some "$gte"
  | .lt => some "$lt"
  | .le => some "$lte"
  | _ => none

/-- A regular expression that ignores case. -/
def ofPattern (p : Pattern) : Document :=
  object [("$regex", text p.regex), ("$options", text "i")]

/-- The condition of a check. -/
def condition (c : Check) : Except Failure Document :=
  match c.test, c.operand with
  | .isNull, _ => .ok null
  | .isNotNull, _ => .ok (single "$ne" null)
  | .eq, .value v => ofValue v.value
  | test, .value v =>
    match comparisonKey? test with
    | some key => (ofValue v.value).map (single key)
    | none => .error (.mismatch c.mismatch)
  | .isIn, .list items => (ofItems items).map (single "$in")
  | .notIn, .list items => (ofItems items).map (single "$nin")
  | .like, .pattern p => .ok (ofPattern p)
  | .notLike, .pattern p => .ok (single "$not" (ofPattern p))
  | .between, .range low high => do
    let l ← ofValue low.value
    let h ← ofValue high.value
    return object [("$gte", l), ("$lte", h)]
  | _, _ => .error (.mismatch c.mismatch)

/-- Several parts under an operator, one part alone, or the document that stands for none. -/
def join (operator : String) (empty : Document) : List Document → Document
  | [] => empty
  | [d] => d
  | ds => single operator (array ds)

mutual

/-- The filter document of an expression. -/
def render : Expr → Except Failure Document
  | .and parts => (renderAll parts).map (join "$and" (object []))
  | .or parts => (renderAll parts).map (join "$or" (single "$nor" (array [object []])))
  | .check c => (condition c).map (single c.path.storagePath)

def renderAll : List Expr → Except Failure (List Document)
  | [] => .ok []
  | e :: rest => (render e).bind fun d => (renderAll rest).map (d :: ·)

end

end Document

end RecordFilter
