import RecordFilter.Calendar.Format
import RecordFilter.Settings.Basic
import RecordFilter.Settings.Literal

/-!
# Settings documents

Settings are read from a TOML document of one `key = value` on a line. Keys that are not given keep
their defaults. A key that is not known, or given twice, or given a value of another type makes the
document unreadable.
-/

namespace RecordFilter.SettingsDocument

open RecordFilter.Calendar

/-! ## Lines -/

def isBareKeyChar (c : Char) : Bool := c.isAlphanum || c == '_' || c == '-'

/-- A key is a bare word or a short string. -/
def readKey (s : List Char) : Option (List Char × List Char) :=
  if s.head?.any isBareKeyChar then some (s.takeWhile isBareKeyChar, s.dropWhile isBareKeyChar)
  else readShortString s

/-- The text without the comment that may come up to the end of the line. -/
def dropComment : List Char → List Char
  | '#' :: s => s.dropWhile isPlain
  | s => s

/-- The rest after the end of a line that has nothing more than a comment. -/
def endLine (s : List Char) : Option (List Char) :=
  match dropComment (s.dropWhile isSpace) with
  | [] => some []
  | '\n' :: rest => some rest
  | '\r' :: '\n' :: rest => some rest
  | _ => none

/-- Reads `key = value` and the end of the line. -/
def readEntry (s : List Char) : Option ((List Char × Literal) × List Char) := do
  let (key, s) ← readKey s
  match s.dropWhile isSpace with
  | '=' :: s => do
    let (value, s) ← readLiteral (s.dropWhile isSpace)
    let rest ← endLine s
    return ((key, value), rest)
  | _ => none

/-- Reads line after line, at most as many as the number says. -/
def readLines : Nat → List Char → Option (List (List Char × Literal))
  | _, [] => some []
  | 0, _ :: _ => none
  | lines + 1, s =>
    match endLine s with
    | some rest => readLines lines rest
    | none => (readEntry (s.dropWhile isSpace)).bind fun (entry, rest) =>
        (readLines lines rest).map (entry :: ·)

/-- A byte order mark in front is no part of the document. -/
def dropOrderMark : List Char → List Char
  | c :: s => if c.toNat = 0xFEFF then s else c :: s
  | [] => []

/-- The keys of a document and their values. -/
def read (s : List Char) : Option (List (List Char × Literal)) :=
  readLines (s.length + 1) (dropOrderMark s)

/-! ## Keys -/

def wordOf? : Literal → Option UInt64
  | .integer n => if 0 ≤ n ∧ n < Int.pow 2 64 then some (.ofNat n.toNat) else none
  | _ => none

def charOf? : Literal → Option Char
  | .text [c] => some c
  | _ => none

def dateOf? : Literal → Option Date
  | .text s => readPlainDate? s
  | _ => none

def boolOf? : Literal → Option Bool
  | .bool b => some b
  | _ => none

/-- Gives a key its value. -/
def assign (s : Settings) (key : String) (value : Literal) : Option Settings :=
  if key = "max_path_depth" then (wordOf? value).map fun n => { s with maxDepth := n }
  else if key = "wildcard" then (charOf? value).map fun c => { s with wildcard := c }
  else if key = "range_floor" then (dateOf? value).map fun d => { s with floor := d }
  else if key = "range_ceiling" then (dateOf? value).map fun d => { s with ceiling := d }
  else if key = "strict_propagation" then
    (boolOf? value).map fun b => { s with strictPropagation := b }
  else none

/-- Gives all keys their values. No key may come twice. -/
def assignAll : List (List Char × Literal) → Settings → Option Settings
  | [], s => some s
  | (key, value) :: rest, s =>
    if rest.any (·.1 == key) then none
    else (assign s (String.ofList key) value).bind (assignAll rest)

end RecordFilter.SettingsDocument

namespace RecordFilter.Settings

/-- Why a document gives no settings. -/
inductive DocumentError
  | unreadable
  | invalid (e : SettingsError)
  deriving DecidableEq, Repr

/-- The settings of a document. -/
def ofDocument (text : String) : Except DocumentError Settings :=
  match (SettingsDocument.read text.toList).bind (SettingsDocument.assignAll · {}) with
  | none => .error .unreadable
  | some s => match s.check with
    | .ok () => .ok s
    | .error e => .error (.invalid e)

end RecordFilter.Settings
