import RecordFilter.Schema.Scalar

/-!
# Field types

The declared type of a field: a scalar, an array, an enumeration, a type of the caller's own, or a
nested record. An enumeration is told apart by its name and its members' names and ordinals, and a
caller's type by its name alone; the functions that they carry take no part in that.
-/

namespace RecordFilter

structure EnumMember where
  name : String
  ordinal : Nat
  /-- Accepts further keywords for this member. -/
  accepts : Option (String → Bool) := none

structure EnumModel where
  name : String
  members : List EnumMember

/-- A type of the caller's own, with the function that makes its values. -/
structure CustomType where
  name : String
  ordered : Bool := false
  construct : String → Except String Value

inductive FieldType
  | scalar (s : Scalar)
  | array (element : FieldType)
  | enumeration (model : EnumModel)
  | custom (c : CustomType)
  | record (name : String)

/-! ## Enumerations -/

namespace EnumMember

def same (a b : EnumMember) : Bool := a.name == b.name && a.ordinal == b.ordinal

theorem same_iff {a b : EnumMember} :
    a.same b = true ↔ a.name = b.name ∧ a.ordinal = b.ordinal := by
  simp [same]

/-- The member's own predicate takes the keyword. -/
def isCandidate (m : EnumMember) (keyword : String) : Bool :=
  match m.accepts with
  | some p => p keyword
  | none => false

end EnumMember

def sameMembers : List EnumMember → List EnumMember → Bool
  | [], [] => true
  | a :: as, b :: bs => a.same b && sameMembers as bs
  | _, _ => false

theorem sameMembers_iff {as bs : List EnumMember} :
    sameMembers as bs = true ↔
      as.map (fun m => (m.name, m.ordinal)) = bs.map (fun m => (m.name, m.ordinal)) := by
  induction as generalizing bs with
  | nil => cases bs <;> simp [sameMembers]
  | cons a as ih =>
    cases bs with
    | nil => simp [sameMembers]
    | cons b bs => simp [sameMembers, EnumMember.same_iff, ih]

namespace EnumModel

def same (a b : EnumModel) : Bool := a.name == b.name && sameMembers a.members b.members

theorem same_iff {a b : EnumModel} :
    a.same b = true ↔ a.name = b.name ∧
      a.members.map (fun m => (m.name, m.ordinal)) =
        b.members.map (fun m => (m.name, m.ordinal)) := by
  simp [same, sameMembers_iff]

/-- The first member of exactly this name. -/
def member? (m : EnumModel) (name : String) : Option EnumMember :=
  m.members.find? (·.name == name)

def valueOf (m : EnumModel) (member : EnumMember) : EnumValue :=
  ⟨m.name, member.name, member.ordinal⟩

end EnumModel

/-! ## Types -/

namespace FieldType

/-- Whether two types are one and the same. -/
def same : FieldType → FieldType → Bool
  | scalar a, scalar b => a == b
  | array a, array b => same a b
  | enumeration a, enumeration b => a.same b
  | custom a, custom b => a.name == b.name
  | record a, record b => a == b
  | _, _ => false

theorem same_symm {a b : FieldType} (h : a.same b = true) : b.same a = true := by
  induction a generalizing b with
  | array element ih =>
    cases b <;> simp only [same, Bool.false_eq_true] at h ⊢
    exact ih h
  | enumeration m =>
    cases b <;> simp only [same, Bool.false_eq_true] at h ⊢
    rw [EnumModel.same_iff] at h ⊢
    exact ⟨h.1.symm, h.2.symm⟩
  | _ => cases b <;> simp_all [same]

theorem same_trans {a b c : FieldType} (h : a.same b = true) (h' : b.same c = true) :
    a.same c = true := by
  induction a generalizing b c with
  | array element ih =>
    cases b <;> simp only [same, Bool.false_eq_true] at h
    cases c <;> simp only [same, Bool.false_eq_true] at h' ⊢
    exact ih h h'
  | enumeration m =>
    cases b <;> simp only [same, Bool.false_eq_true] at h
    cases c <;> simp only [same, Bool.false_eq_true] at h' ⊢
    rw [EnumModel.same_iff] at h h' ⊢
    exact ⟨h.1.trans h'.1, h.2.trans h'.2⟩
  | _ => cases b <;> cases c <;> simp_all [same]

theorem same_congr {a b : FieldType} (h : a.same b = true) (c : FieldType) :
    a.same c = b.same c := by
  rw [Bool.eq_iff_iff]
  exact ⟨same_trans (same_symm h), same_trans h⟩

def text : FieldType → String
  | scalar s => s.name
  | array element => "array<" ++ text element ++ ">"
  | enumeration m => "enum:" ++ m.name
  | custom c => "custom:" ++ c.name
  | record name => "record:" ++ name

def scalar? : FieldType → Option Scalar
  | scalar s => some s
  | _ => none

def family : FieldType → Family
  | scalar s => s.family
  | array _ => .collection
  | enumeration _ => .enumeration
  | custom _ => .custom
  | record _ => .record

/-- Whether less and greater mean something for the type. -/
def isOrdered : FieldType → Bool
  | scalar s => s.isOrdered
  | enumeration _ => true
  | custom c => c.ordered
  | array _ | record _ => false

def isWidened : FieldType → Bool
  | scalar s => s.isWidened
  | _ => false

/-- Types that the elements of an element collection can have. -/
def isElement : FieldType → Bool
  | scalar _ | enumeration _ | custom _ => true
  | array _ | record _ => false

end FieldType

/-- A value with the type that it was declared to have. -/
structure TypedValue where
  value : Value
  declared : FieldType

end RecordFilter
