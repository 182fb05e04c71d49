import Containment.Ident
import Containment.Policy

/-!
# Settings

The keys and values of one section, and their typed reading. Every value is read without the blanks
around it. A list is separated by commas, and blank items count for nothing.
-/

namespace Containment

open Text

/-! ## Values -/

inductive ValueError where
  | numeral (error : NumeralError)
  | boolean
  | policy
  /-- The words of the reader of any other type. -/
  | other (text : String)
  deriving DecidableEq

def ValueError.message : ValueError → String
  | .numeral error => error.message
  | .boolean => "provided string was not `true` or `false`"
  | .policy => "Matching variant not found"
  | .other text => text

/-- Reads the text of a value of one type. -/
abbrev ValueReader (α : Type) := List Char → Except ValueError α

namespace ValueReader

def bool : ValueReader Bool := fun cs =>
  if cs = ['t', 'r', 'u', 'e'] then .ok true
  else if cs = ['f', 'a', 'l', 's', 'e'] then .ok false
  else .error .boolean

def integer (range : IntegerRange) : ValueReader Int := fun cs =>
  (readInteger range 10 cs).mapError .numeral

def word : ValueReader UInt64 := fun cs =>
  ((readNatural 64 10 cs).map UInt64.ofNat).mapError .numeral

def text : ValueReader String := fun cs => .ok (String.ofList cs)

def pid : ValueReader Pid := fun cs => (Pid.read cs).mapError .numeral

def file : ValueReader FileId := fun cs => (FileId.read cs).mapError .numeral

def policy : ValueReader Policy := fun cs =>
  match Policy.ofText? (String.ofList cs) with
  | some p => .ok p
  | none => .error .policy

end ValueReader

/-! ## Sections -/

inductive SectionError where
  | required (field : String)
  | invalid (field value : String) (cause : ValueError)
  deriving DecidableEq

def SectionError.message : SectionError → String
  | .required field => s!"field {field} is required"
  | .invalid field value cause =>
    s!"{value} is not a valid value for field {field}: {cause.message}"

structure Section where
  values : List (String × String) := []
  deriving DecidableEq

namespace Section

def raw? (s : Section) (field : String) : Option String := s.values.lookup field

def insert (s : Section) (field value : String) : Section :=
  { values := (field, value) :: s.values.filter fun entry => entry.1 != field }

/-- A later value of a key replaces an earlier one. -/
def ofList (values : List (String × String)) : Section :=
  values.foldl (fun s entry => s.insert entry.1 entry.2) {}

def toSortedList (s : Section) : List (String × String) :=
  s.values.mergeSort fun a b => !(b.1 < a.1)

variable {α : Type} (reader : ValueReader α)

def readValue (field value : String) : Except SectionError α :=
  (reader (trim value.toList)).mapError (.invalid field value)

def optional (s : Section) (field : String) : Except SectionError (Option α) :=
  match s.raw? field with
  | none => .ok none
  | some value => (readValue reader field value).map some

def required (s : Section) (field : String) : Except SectionError α := do
  match ← s.optional reader field with
  | some a => return a
  | none => .error (.required field)

def getD (s : Section) (field : String) (default : α) : Except SectionError α := do
  return (← s.optional reader field).getD default

/-! ## Lists -/

/-- The parts between the separators, of which there is one more. -/
def splitAt (separator : Char) : List Char → List (List Char)
  | [] => [[]]
  | c :: cs =>
    match splitAt separator cs with
    | [] => [[c]]
    | part :: parts => if c = separator then [] :: part :: parts else (c :: part) :: parts

theorem splitAt_ne_nil (separator : Char) (cs : List Char) : splitAt separator cs ≠ [] := by
  cases cs with
  | nil => simp [splitAt]
  | cons c cs =>
    simp only [splitAt]
    cases splitAt separator cs with
    | nil => simp
    | cons part parts => simp only; split <;> simp

def listItems (value : List Char) : List (List Char) :=
  ((splitAt ',' value).map trim).filter fun item => !item.isEmpty

def list (s : Section) (field : String) : Except SectionError (List α) :=
  match s.raw? field with
  | none => .ok []
  | some value =>
    (listItems value.toList).mapM fun item => readValue reader field (String.ofList item)

end Section

end Containment
