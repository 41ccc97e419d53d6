import RecordFilter.FreeText.Basic
import RecordFilter.Search.Options

/-!
# Searches

A search joins the search for its keyword and its filter by `and`, and resolves the paths that it
sorts by. The first fault is reported: names that are no association, the page, the filter, then
the order.
-/

namespace RecordFilter

open RecordFilter.Text

inductive SearchError
  | compile (e : CompileError)
  | sort (property : String) (e : PathError)
  | unknownPropagation (schema : String) (names : List String)
  | emptyPage

namespace SearchError

def message : SearchError → String
  | compile e => e.message
  | sort property e => "cannot sort by '" ++ property ++ "': " ++ e.message
  | unknownPropagation schema names =>
    "schema '" ++ schema ++ "' has no association named " ++ ", ".intercalate names
  | emptyPage => "page size must be at least 1"

/-- The selector or property that the error is about. -/
def selector? : SearchError → Option String
  | compile e => some e.selector
  | sort property _ => some property
  | unknownPropagation .. | emptyPage => none

end SearchError

structure ResolvedOrder where
  path : Path
  direction : Direction

structure CompiledSearch where
  filter : Expr
  sort : List ResolvedOrder
  page : Option Page

/-- One row can come out several times, since a path of the filter can have several values. -/
def CompiledSearch.distinct (s : CompiledSearch) : Bool := s.filter.isMany

namespace SearchOptions

/-- The options that can be refused before anything is compiled. -/
def check (o : SearchOptions) (settings : Settings) (root : Schema) : Except SearchError Unit :=
  let unknown := root.unknownNames o.propagate
  if settings.strictPropagation ∧ !unknown.isEmpty then
    .error (.unknownPropagation root.name unknown)
  else if o.page.any (·.size == 0) then .error .emptyPage
  else .ok ()

/-- The keyword, if it is not blank. -/
def givenKeyword (o : SearchOptions) : Option String :=
  o.keyword.filter fun k => !(trim k).isEmpty

end SearchOptions

namespace Compiler

/-- The path that a search sorts by. -/
def resolveOrder (c : Compiler) (root : Schema) (o : SortOrder) :
    Except SearchError ResolvedOrder :=
  match c.resolve root o.property with
  | .ok path => .ok ⟨path, o.direction⟩
  | .error e => .error (.sort o.property e)

/-- The part of a search that the filter gives. -/
def filterPart (c : Compiler) (root : Schema) : Option Filter → Except SearchError (List Expr)
  | none => .ok []
  | some f => ((c.compile root f).mapError .compile).map ([·])

/-- Compiles a search. -/
def search (c : Compiler) (root : Schema) (o : SearchOptions) :
    Except SearchError CompiledSearch := do
  o.check c.settings root
  let fromKeyword := o.givenKeyword.toList.map (c.traverse root o.propagate)
  let fromFilter ← c.filterPart root o.filter
  let sort ← o.sort.mapM (c.resolveOrder root)
  return ⟨.all (fromKeyword ++ fromFilter), sort, o.page⟩

end Compiler

end RecordFilter
