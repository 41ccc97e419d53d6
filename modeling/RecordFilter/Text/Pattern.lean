import RecordFilter.Text.Lower
import RecordFilter.Text.Utf8

/-!
# Patterns

A pattern is a sequence of literal texts and wildcards and ignores case: literals are held in small
letters and are compared with the candidate in small letters. A wildcard stands for any run of
characters, possibly none. The two written forms are the operand of an SQL `LIKE` and a regular
expression.
-/

namespace RecordFilter.Text

namespace Pattern

inductive Part
  /-- A text in small letters. -/
  | literal (text : List Char)
  | anyRun
  deriving DecidableEq, Repr

end Pattern

structure Pattern where
  parts : List Pattern.Part
  deriving DecidableEq, Repr

namespace Pattern

/-! ## Making patterns -/

/-- A literal, unless it would be empty. -/
def literalOf (text : List Char) : List Part :=
  if text.isEmpty then [] else [.literal (lower text)]

/-- A wildcard in front. Two in a row are one. -/
def addRun : List Part → List Part
  | .anyRun :: rest => .anyRun :: rest
  | rest => .anyRun :: rest

/-- The literals with a wildcard between each two. -/
def joinRuns : List (List Char) → List Part
  | [] => []
  | [text] => literalOf text
  | text :: rest => literalOf text ++ addRun (joinRuns rest)

/-- The pattern that a text with wildcard marks writes. -/
def ofWildcard (wildcard : Char) (raw : String) : Pattern :=
  ⟨joinRuns (raw.toList.splitOn wildcard)⟩

/-- The pattern of the texts that contain the keyword. -/
def containing (keyword : String) : Pattern :=
  if keyword.isEmpty then ⟨[.anyRun]⟩
  else ⟨[.anyRun, .literal (lower keyword.toList), .anyRun]⟩

/-- The pattern has no wildcard. -/
def isExact (p : Pattern) : Bool := !p.parts.contains .anyRun

/-! ## Matching -/

/-- The first place where the literal occurs. -/
def firstPlace {α : Type} [BEq α] (literal : List α) : List α → Option Nat
  | [] => if literal.isEmpty then some 0 else none
  | x :: rest =>
    if literal.isPrefixOf (x :: rest) then some 0 else (firstPlace literal rest).map (· + 1)

/-- What a part makes of the text: the answer, or the place where the next part goes on. -/
inductive Turn
  | answer (isMatch : Bool)
  | goOn (pos : Nat)

/-- The turn of a literal, all in bytes. The first part has to start the text and the last part has
to end it. Between them every literal is taken at its first place. -/
def literalTurn (text : List UInt8) (isFirst isLast : Bool) (pos : Nat) (literal : List UInt8) :
    Turn :=
  match isFirst, isLast with
  | true, true => .answer (text == literal)
  | true, false => if literal.isPrefixOf text then .goOn literal.length else .answer false
  | false, true => .answer (pos + literal.length ≤ text.length && literal.isSuffixOf text)
  | false, false =>
    match firstPlace literal (text.drop pos) with
    | some place => .goOn (pos + place + literal.length)
    | none => .answer false

def turn (text : List UInt8) (isFirst isLast : Bool) (pos : Nat) : Part → Turn
  | .literal l => literalTurn text isFirst isLast pos (utf8 l)
  | .anyRun => .goOn pos

/-- Gives the parts their turns, from the place where the parts before them have ended. -/
def takeTurns (text : List UInt8) (isFirst : Bool) (pos : Nat) : List Part → Bool
  | [] => true
  | part :: rest =>
    match turn text isFirst rest.isEmpty pos part with
    | .answer isMatch => isMatch
    | .goOn pos => takeTurns text false pos rest

/-- Whether the candidate matches, case ignored. -/
def isMatch (p : Pattern) (candidate : String) : Bool :=
  let text := utf8 (lower candidate.toList)
  if p.parts.isEmpty then text.isEmpty else takeTurns text true 0 p.parts

/-! ## Written forms -/

/-- A character of a `LIKE` operand that has no special meaning. -/
def likeChar (escape c : Char) : List Char :=
  if c = '%' ∨ c = '_' ∨ c = escape then [escape, c] else [c]

def likePart (escape : Char) : Part → List Char
  | .literal l => l.flatMap (likeChar escape)
  | .anyRun => ['%']

/-- The operand of `LIKE` with the given escape character. -/
def like (p : Pattern) (escape : Char) : String :=
  String.ofList (p.parts.flatMap (likePart escape))

/-- The characters with a special meaning in regular expressions. -/
def regexMarks : List Char :=
  ['\\', '.', '+', '*', '?', '(', ')', '|', '[', ']', '\x7b', '\x7d', '^', '$', '#', '&', '-', '~']

def regexChar (c : Char) : List Char := if regexMarks.contains c then ['\\', c] else [c]

def regexPart : Part → List Char
  | .literal l => l.flatMap regexChar
  | .anyRun => ['.', '*']

/-- A regular expression for the whole candidate. -/
def regex (p : Pattern) : String := String.ofList ('^' :: p.parts.flatMap regexPart ++ ['$'])

def displayPart : Part → List Char
  | .literal l => l
  | .anyRun => ['*']

/-- The pattern with stars for its wildcards. -/
def display (p : Pattern) : String := String.ofList (p.parts.flatMap displayPart)

end Pattern

end RecordFilter.Text
