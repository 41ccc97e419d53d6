import RecordFilter.Filter.Basic
import RecordFilter.Render.Document

/-!
# Search options

What one search asks for: a keyword, the associations that it may follow, a filter, an order and a
page. Orders and pages are read from documents, as objects with named members or as arrays of the
members in their order.
-/

namespace RecordFilter

inductive Direction
  | ascending
  | descending
  deriving DecidableEq, Repr

def Direction.text : Direction → String
  | ascending => "ASC"
  | descending => "DESC"

structure SortOrder where
  property : String
  direction : Direction := .ascending
  deriving DecidableEq, Repr

/-- A page of a result, counted from zero. -/
structure Page where
  number : Nat := 0
  size : Nat := 20
  deriving DecidableEq, Repr

/-- The rows before the page. -/
def Page.offset (p : Page) : Nat := p.number * p.size

structure SearchOptions where
  keyword : Option String := none
  /-- The associations that the keyword may follow, a sorted set. -/
  propagate : List String := []
  filter : Option Filter := none
  sort : List SortOrder := []
  page : Option Page := none

/-! ## Reading from documents -/

namespace Document

def text? : Document → Option String
  | text s => some s
  | _ => none

/-- A natural number of 32 bits. -/
def natural32? : Document → Option Nat
  | integer n => if 0 ≤ n ∧ n < Int.pow 2 32 then some n.toNat else none
  | _ => none

end Document

def Direction.ofName? (name : String) : Option Direction :=
  if name = "asc" then some ascending else if name = "desc" then some descending else none

/-- A direction is a name, or an object with nothing but the name as its key. -/
def Direction.ofDocument? : Document → Option Direction
  | .text s => ofName? s
  | .object [(s, .null)] => ofName? s
  | _ => none

/-- An order needs a property and is ascending unless told otherwise. -/
def SortOrder.ofDocument? : Document → Option SortOrder
  | .object entries => do
    let property ← (← entries.lookup "property").text?
    match entries.lookup "direction" with
    | some d => return ⟨property, ← Direction.ofDocument? d⟩
    | none => return { property }
  | .array [p] => p.text?.map fun property => { property }
  | .array [p, d] => do return ⟨← p.text?, ← Direction.ofDocument? d⟩
  | _ => none

/-- A page needs both its number and its size. -/
def Page.ofDocument? : Document → Option Page
  | .object entries => do
    return ⟨← (← entries.lookup "page").natural32?, ← (← entries.lookup "size").natural32?⟩
  | .array [n, s] => do return ⟨← n.natural32?, ← s.natural32?⟩
  | _ => none

end RecordFilter
