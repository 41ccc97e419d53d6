import RecordFilter.Identifier.Word
import RecordFilter.Text.Digit

/-!
# Literals of settings documents

The values that a settings document in TOML can give a key of this program: strings in their four
forms, integers in four bases, and the two truth values. Anything else that TOML knows is no value
of any key, so it is not read.
-/

namespace RecordFilter.SettingsDocument

open RecordFilter.Identifier RecordFilter.Text

inductive Literal
  | text (s : List Char)
  | integer (n : Int)
  | bool (b : Bool)
  deriving DecidableEq, Repr

def isSpace (c : Char) : Bool := c == ' ' || c == '\t'

/-- Characters that may stand for themselves in strings and comments. -/
def isPlain (c : Char) : Bool := c == '\t' || (0x20 ≤ c.toNat && c.toNat != 0x7F)

/-- The text begins with the end of a line. A carriage return is part of one only before a line
feed. -/
def beginsLineEnd (c : Char) (rest : List Char) : Bool :=
  c == '\n' || (c == '\r' && rest.head? == some '\n')

/-! ## Strings with escapes -/

/-- What the next character of a string is read as. -/
inductive Mode
  | plain
  /-- After a backslash. -/
  | escape
  /-- Inside the code of a character: how many digits are left, and the code so far. -/
  | code (left value : Nat)
  /-- After a backslash and spaces: the line has to end. -/
  | lineEnd
  /-- After an escaped end of line: spaces and ends of lines are left out. -/
  | leftOut

/-- What a character of a string does. -/
inductive Step
  | emit (c : Char) (next : Mode)
  | skip (next : Mode)
  /-- The string ends with these characters and `drop` more marks. -/
  | close (last : List Char) (drop : Nat)
  | fail

/-- A quotation mark. In the long form three end the string, and two more may come before them. -/
def quoteStep (long : Bool) (rest : List Char) : Step :=
  if !long then .close [] 0
  else match rest with
    | '"' :: '"' :: more =>
      let extra := (more.takeWhile (· == '"')).take 2
      .close extra (2 + extra.length)
    | _ => .emit '"' .plain

def plainStep (long : Bool) (c : Char) (rest : List Char) : Step :=
  if c = '"' then quoteStep long rest
  else if c = '\\' then .skip .escape
  else if isPlain c || (long && beginsLineEnd c rest) then .emit c .plain
  else .fail

/-- Spaces up to the end of a line. -/
def lineEndStep (c : Char) (rest : List Char) : Step :=
  if c = '\n' then .skip .leftOut
  else if isSpace c || beginsLineEnd c rest then .skip .lineEnd
  else .fail

/-- The character that a one-letter escape stands for. -/
def escaped? (c : Char) : Option Char :=
  if c = '"' ∨ c = '\\' then some c
  else if c = 'b' then some '\x08'
  else if c = 't' then some '\t'
  else if c = 'n' then some '\n'
  else if c = 'f' then some '\x0c'
  else if c = 'r' then some '\r'
  else if c = 'e' then some '\x1b'
  else none

def escapeStep (long : Bool) (c : Char) (rest : List Char) : Step :=
  match escaped? c with
  | some e => .emit e .plain
  | none =>
    if c = 'x' then .skip (.code 2 0)
    else if c = 'u' then .skip (.code 4 0)
    else if c = 'U' then .skip (.code 8 0)
    else if !long then .fail
    else lineEndStep c rest

/-- One more digit of a code. The last one gives the character, if there is one of that code. -/
def codeStep (left value : Nat) (c : Char) : Step :=
  match hexDigit? c with
  | none => .fail
  | some d =>
    let next := value * 16 + d.val
    if 1 < left then .skip (.code (left - 1) next)
    else if next.isValidChar then .emit (Char.ofNat next) .plain
    else .fail

def step (long : Bool) (mode : Mode) (c : Char) (rest : List Char) : Step :=
  match mode with
  | .plain => plainStep long c rest
  | .escape => escapeStep long c rest
  | .code left value => codeStep left value c
  | .lineEnd => lineEndStep c rest
  | .leftOut =>
    if isSpace c || beginsLineEnd c rest then .skip .leftOut else plainStep long c rest

/-- Reads a string up to its end. -/
def readEscaped (long : Bool) : Mode → List Char → Option (List Char × List Char)
  | _, [] => none
  | mode, c :: rest =>
    match step long mode c rest with
    | .emit e next => (readEscaped long next rest).map fun (s, t) => (e :: s, t)
    | .skip next => readEscaped long next rest
    | .close last drop => some (last, rest.drop drop)
    | .fail => none

/-! ## Strings without escapes -/

/-- Reads up to an apostrophe on the same line. -/
def readVerbatim : List Char → Option (List Char × List Char)
  | [] => none
  | c :: rest =>
    if c = '\x27' then some ([], rest)
    else if isPlain c then (readVerbatim rest).map fun (s, t) => (c :: s, t)
    else none

/-- Reads up to three apostrophes, before which two more may come. -/
def readLongVerbatim : List Char → Option (List Char × List Char)
  | [] => none
  | c :: rest =>
    let isMark (c : Char) : Bool := c == '\x27'
    if isMark c ∧ (rest.take 2).length = 2 ∧ (rest.take 2).all isMark then
      let extra := ((rest.drop 2).takeWhile isMark).take 2
      some (extra, rest.drop (2 + extra.length))
    else if isPlain c || beginsLineEnd c rest then
      (readLongVerbatim rest).map fun (s, t) => (c :: s, t)
    else none

/-- A long string does not begin with the end of its first line. -/
def dropFirstEnd : List Char → List Char
  | '\n' :: s => s
  | '\r' :: '\n' :: s => s
  | s => s

/-- Reads a string that may stand for a key: a short one. -/
def readShortString : List Char → Option (List Char × List Char)
  | '"' :: s => readEscaped false .plain s
  | '\x27' :: s => readVerbatim s
  | _ => none

def readString : List Char → Option (List Char × List Char)
  | '"' :: '"' :: '"' :: s => readEscaped true .plain (dropFirstEnd s)
  | '\x27' :: '\x27' :: '\x27' :: s => readLongVerbatim (dropFirstEnd s)
  | s => readShortString s

/-! ## Integers -/

/-- Digits of the base in one or more groups between underscores. -/
def readGroups (base : Nat) (s : List Char) : Option Nat :=
  let groups := s.splitOn '_'
  if groups.any List.isEmpty then none
  else (hexDigits? groups.flatten).bind fun digits =>
    if digits.all (·.val < base) then
      some (digits.foldl (fun n (d : Fin 16) => n * base + d.val) 0)
    else none

/-- A decimal number has no zero in front. -/
def readDecimal (s : List Char) : Option Nat :=
  if s.head? = some '0' ∧ s ≠ ['0'] then none else readGroups 10 s

def readInteger : List Char → Option Int
  | '0' :: 'x' :: s => (readGroups 16 s).map Int.ofNat
  | '0' :: 'o' :: s => (readGroups 8 s).map Int.ofNat
  | '0' :: 'b' :: s => (readGroups 2 s).map Int.ofNat
  | '-' :: s => (readDecimal s).map fun n => -(n : Int)
  | '+' :: s => (readDecimal s).map Int.ofNat
  | s => (readDecimal s).map Int.ofNat

/-! ## Literals -/

/-- Characters of a word that is no string. -/
def isWordChar (c : Char) : Bool :=
  c.isAlphanum || c == '_' || c == '+' || c == '-' || c == '.' || c == ':'

def readWord (word : List Char) : Option Literal :=
  if word = ['t', 'r', 'u', 'e'] then some (.bool true)
  else if word = ['f', 'a', 'l', 's', 'e'] then some (.bool false)
  else (readInteger word).map .integer

/-- Reads a literal at the front of the text. -/
def readLiteral (s : List Char) : Option (Literal × List Char) :=
  if s.head? = some '"' ∨ s.head? = some '\x27' then
    (readString s).map fun (t, rest) => (.text t, rest)
  else
    (readWord (s.takeWhile isWordChar)).map fun l => (l, s.dropWhile isWordChar)

end RecordFilter.SettingsDocument
