import RecordFilter.Coercion.Strategy
import RecordFilter.Text.Blank

/-!
# Coercion

A coercer asks its strategies in order, the caller's own ones before the built-in ones. The first
that accepts the declared type converts the operand, and its failure is final. A blank operand is
the null value of any type.

A coercer remembers which strategy it has found for a type, and asks its memory first. Types that
are the same share what is remembered, though the functions that they carry may differ.
-/

namespace RecordFilter

open RecordFilter.Text

structure Coercer where
  own : List OwnStrategy
  /-- The strategies that were found before, with the types for which they were looked up. -/
  known : List (FieldType × Strategy) := []

namespace Coercer

/-- The built-in strategies alone. -/
def standard : Coercer := { own := [] }

def strategies (c : Coercer) : List Strategy := c.own.map .own ++ Strategy.builtIn

/-- The first strategy that accepts the type. -/
def search (c : Coercer) (target : FieldType) : Option Strategy :=
  c.strategies.find? (·.accepts target)

/-- The strategy that is remembered for the type. -/
def remembered (c : Coercer) (target : FieldType) : Option Strategy :=
  (c.known.find? fun entry => target.same entry.1).map (·.2)

/-- The strategy that is responsible for the type. -/
def route (c : Coercer) (target : FieldType) : Option Strategy :=
  (c.remembered target).or (c.search target)

/-- Some strategy accepts the type. -/
def covers (c : Coercer) (target : FieldType) : Bool := (c.route target).isSome

/-- Converts by the strategy that is responsible for the type. -/
def convertRouted (c : Coercer) (element : String → Except CoercionError Value)
    (target : FieldType) (raw : String) : Except CoercionError Value :=
  match c.route target with
  | some s => s.convert element target raw
  | none => .error (.invalid raw target .noStrategy)

/-- Nothing is given where the text is all blank; anything else is converted without the blanks
around it. -/
def unlessBlank (convert : String → Except CoercionError Value) (raw : String) :
    Except CoercionError Value :=
  let trimmed := trim raw
  if trimmed.isEmpty then .ok .null else convert trimmed

/-- Converts an operand that is not blank and has no blanks around it. -/
def convert (c : Coercer) : FieldType → String → Except CoercionError Value
  | .array element, raw => c.convertRouted (unlessBlank (convert c element)) (.array element) raw
  | target, raw => c.convertRouted (fun _ => .ok .null) target raw

/-- The value of an operand for the declared type. -/
def coerce (c : Coercer) (target : FieldType) (raw : String) : Except CoercionError TypedValue :=
  (unlessBlank (c.convert target) raw).map (⟨·, target⟩)

/-- All operands, or the error of the first that does not fit. -/
def coerceAll (c : Coercer) (target : FieldType) (raws : List String) :
    Except CoercionError (List TypedValue) :=
  raws.mapM (c.coerce target)

/-! ## Memory -/

/-- The coercer with an empty memory. -/
def forget (c : Coercer) : Coercer := { own := c.own }

/-- Remembers the strategy for a type, if it has one that is not remembered yet. -/
def note (c : Coercer) (target : FieldType) : Coercer :=
  match c.remembered target, c.search target with
  | none, some s => { c with known := (target, s) :: c.known }
  | _, _ => c

/-- The coercer after an operand, blanks around it or not, was converted. Parts of an array are
converted for themselves, and nothing is looked up for a blank text. -/
def after : FieldType → String → Coercer → Coercer
  | .array element, raw, c =>
    if (trim raw).isEmpty then c
    else match c.route (.array element) with
      | some .array => (Strategy.arrayParts (trim raw)).foldl (fun c part => after element part c)
          (c.note (.array element))
      | _ => c.note (.array element)
  | target, raw, c => if (trim raw).isEmpty then c else c.note target

/-- The coercer after several operands were converted. -/
def afterAll (target : FieldType) (raws : List String) (c : Coercer) : Coercer :=
  raws.foldl (fun c raw => after target raw c) c

end Coercer

end RecordFilter
