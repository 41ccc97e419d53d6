import RecordFilter.Render.Error

/-!
# SQL

An expression as a WHERE clause with a placeholder for each value, the values in the order of their
placeholders, and the joins that the columns need. A join is opened for each association and each
element collection on the way to a column, once for all columns that go the same way.
-/

namespace RecordFilter.Sql

open RecordFilter.Text

structure Join where
  /-- The name of a row and the names from there, joined by dots. -/
  source : String
  /-- The name under which the joined row is known in the clause. -/
  name : String
  deriving DecidableEq, Repr

def Join.text (j : Join) : String := "LEFT JOIN " ++ j.source ++ " AS " ++ j.name

/-- The name of the row that is selected. -/
def rootName : String := "e"

/-- The character that escapes others in a `LIKE` operand. -/
def likeEscape : Char := '\\'

/-- The name of the join with this source. It is opened as the next one where there is none. -/
def openJoin (joins : List Join) (source : String) : List Join × String :=
  match joins.find? (·.source == source) with
  | some j => (joins, j.name)
  | none =>
    let name := "j" ++ toString (joins.length + 1)
    (joins ++ [⟨source, name⟩], name)

/-- The column expression that the segments lead to from `current`, and the joins with those that
were opened on the way. -/
def columnFrom (joins : List Join) (current : String) : List Segment → List Join × String
  | [] => (joins, current)
  | s :: rest =>
    let source := current ++ "." ++ s.storageName
    if s.kind.isJoin then
      let (joins, name) := openJoin joins source
      columnFrom joins name rest
    else columnFrom joins source rest

def column (joins : List Join) (p : Path) : List Join × String :=
  columnFrom joins rootName p.segments

/-- A piece of the clause and the values of its placeholders. -/
structure Fragment where
  text : String
  params : List TypedValue

/-- The symbol of a test against one value. -/
def comparisonSymbol? : Test → Option String
  | .eq => some "="
  | .ne => some "<>"
  | .gt => some ">"
  | .ge => some ">="
  | .lt => some "<"
  | .le => some "<="
  | _ => none

/-- `count` placeholders between commas. -/
def placeholders (count : Nat) : String := ", ".intercalate (List.replicate count "?")

/-- Membership in a list. Nothing is in the empty list. -/
def membership (column : String) (negated : Bool) (items : List TypedValue) : Fragment :=
  if items.isEmpty then ⟨if negated then "1=1" else "1=0", []⟩
  else ⟨column ++ (if negated then " NOT IN (" else " IN (") ++ placeholders items.length ++ ")",
    items⟩

/-- A pattern match that ignores case. -/
def patternMatch (column : String) (negated : Bool) (p : Pattern) (declared : FieldType) :
    Fragment :=
  ⟨"LOWER(" ++ column ++ ")" ++ (if negated then " NOT LIKE ? " else " LIKE ? ") ++ "ESCAPE '" ++
    likeEscape.toString ++ "'", [⟨.text (p.like likeEscape), declared⟩]⟩

/-- The piece for a check on a column, and none where test and operand do not go together. -/
def fragment? (column : String) (c : Check) : Option Fragment :=
  match c.test, c.operand with
  | .isNull, _ => some ⟨column ++ " IS NULL", []⟩
  | .isNotNull, _ => some ⟨column ++ " IS NOT NULL", []⟩
  | test, .value v =>
    (comparisonSymbol? test).map fun symbol => ⟨column ++ " " ++ symbol ++ " ?", [v]⟩
  | .isIn, .list items => some (membership column false items)
  | .notIn, .list items => some (membership column true items)
  | .like, .pattern p => some (patternMatch column false p c.path.terminal)
  | .notLike, .pattern p => some (patternMatch column true p c.path.terminal)
  | .between, .range low high => some ⟨column ++ " BETWEEN ? AND ?", [low, high]⟩
  | _, _ => none

/-- The piece for a check, after the joins that are open. -/
def checkClause (joins : List Join) (c : Check) : Except RenderError (List Join × Fragment) :=
  let (joins, column) := column joins c.path
  match fragment? column c with
  | some f => .ok (joins, f)
  | none => .error c.mismatch

/-- Several pieces in parentheses, one piece alone, or the clause that stands for none. -/
def joinFragments (joiner empty : String) : List Fragment → Fragment
  | [] => ⟨empty, []⟩
  | [f] => f
  | fs => ⟨"(" ++ joiner.intercalate (fs.map (·.text)) ++ ")", fs.flatMap (·.params)⟩

/-- The text of joined pieces with these texts. -/
def joinTexts (joiner empty : String) : List String → String
  | [] => empty
  | [text] => text
  | texts => "(" ++ joiner.intercalate texts ++ ")"

theorem joinFragments_eq (joiner empty : String) (fs : List Fragment) :
    joinFragments joiner empty fs =
      ⟨joinTexts joiner empty (fs.map (·.text)), fs.flatMap (·.params)⟩ := by
  match fs with
  | [] => rfl
  | [f] => simp [joinFragments, joinTexts]
  | _ :: _ :: _ => rfl

mutual

/-- The clause of an expression, after the joins that are open. -/
def clause (joins : List Join) : Expr → Except RenderError (List Join × Fragment)
  | .and parts => (clauses joins parts).map fun r => (r.1, joinFragments " AND " "1=1" r.2)
  | .or parts => (clauses joins parts).map fun r => (r.1, joinFragments " OR " "1=0" r.2)
  | .check c => checkClause joins c

def clauses (joins : List Join) : List Expr → Except RenderError (List Join × List Fragment)
  | [] => .ok (joins, [])
  | e :: rest =>
    (clause joins e).bind fun first =>
      (clauses first.1 rest).map fun others => (others.1, first.2 :: others.2)

end

/-- A rendered expression. -/
structure Query where
  joins : List Join
  whereClause : String
  params : List TypedValue

def Query.joinClause (q : Query) : String := " ".intercalate (q.joins.map Join.text)

def render (e : Expr) : Except RenderError Query :=
  (clause [] e).map fun r => ⟨r.1, r.2.text, r.2.params⟩

end RecordFilter.Sql
