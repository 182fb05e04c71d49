import Containment.Json.Reader

/-!
# Records on the wire

How a type is written as a JSON tree and read back. A record is an object with the fields in any
order, or the array of its fields in their order. Fields that are not known are passed over, one
that comes twice is a fault, and only an optional one may be missing.

Faults are met in the order of the text. `malformed` is a text that is not JSON, `unfit` is JSON of
the wrong shape, and of both the first one counts. A type whose values carry a tag is read from a
whole tree only.
-/

namespace Containment.Wire

open Json

inductive Fault where
  | malformed
  | unfit
  deriving DecidableEq

/-- In a tree that was first read whole, an empty object may stand for null in a policy. -/
inductive Reading where
  | direct
  | whole
  deriving DecidableEq

class Wired (α : Type) where
  encode : α → Tree
  decode : Reading → Tree → Except Fault α

/-! ## Values -/

def mismatch : Tree → Fault
  | .broken | .text none | .number (.real false) => .malformed
  | _ => .unfit

def decodeNat (bound : Nat) : Tree → Except Fault Nat
  | .number (.natural n) => if n < bound then .ok n else .error .unfit
  | tree => .error (mismatch tree)

def decodeBool : Tree → Except Fault Bool
  | .bool b => .ok b
  | tree => .error (mismatch tree)

def decodeString : Tree → Except Fault String
  | .text (some s) => .ok s
  | tree => .error (mismatch tree)

def encodeNat (n : Nat) : Tree := .number (.natural n)

section Lists

variable {α : Type} (decode : Tree → Except Fault α)

def decodeItems : Items → Except Fault (List α)
  | .close => .ok []
  | .cut => .error .malformed
  | .item v rest => do
    let a ← decode v
    return a :: (← decodeItems rest)

def decodeList : Tree → Except Fault (List α)
  | .array items => decodeItems decode items
  | tree => .error (mismatch tree)

end Lists

/-! ## Records -/

structure FieldRule where
  name : String
  check : Tree → Except Fault Unit
  isOptional : Bool

def FieldRule.of (α : Type) [Wired α] (reading : Reading) (name : String)
    (isOptional : Bool := false) : FieldRule where
  name := name
  check tree := (Wired.decode reading tree : Except Fault α).map fun _ => ()
  isOptional := isOptional

/-- The known fields that were there, each at most once. -/
abbrev Found := List (String × Tree)

def takeFields (rules : List FieldRule) (found : Found) : Fields → Except Fault Found
  | .cut => .error .malformed
  | .close =>
    if rules.all fun rule => rule.isOptional || (found.lookup rule.name).isSome then .ok found
    else .error .unfit
  | .field none _ _ => .error .malformed
  | .field (some key) v rest =>
    match rules.find? fun rule => rule.name == key with
    | none => takeFields rules found rest
    | some rule =>
      if (found.lookup key).isSome then .error .unfit
      else do
        rule.check v
        takeFields rules ((key, v) :: found) rest

def takeItems (found : Found) : List FieldRule → Items → Except Fault Found
  | [], .close => .ok found
  | [], _ => .error .malformed
  | rule :: rules, .close =>
    if rule.isOptional then takeItems found rules .close else .error .unfit
  | _ :: _, .cut => .error .malformed
  | rule :: rules, .item v rest => do
    rule.check v
    takeItems ((rule.name, v) :: found) rules rest

def takeRecord (rules : List FieldRule) : Tree → Except Fault Found
  | .object fields => takeFields rules [] fields
  | .array items => takeItems [] rules items
  | tree => .error (mismatch tree)

def Found.get (found : Found) (reading : Reading) (name : String) {α : Type} [Wired α] :
    Except Fault α :=
  match found.lookup name with
  | some tree => Wired.decode reading tree
  | none => .error .unfit

def Found.getD (found : Found) (reading : Reading) (name : String) {α : Type} [Wired α]
    (default : α) : Except Fault α :=
  match found.lookup name with
  | some tree => Wired.decode reading tree
  | none => .ok default

/-! ## Tagged records -/

/-- Containers may be nested this deep where a tree has to be read whole. -/
def maxDepth : Nat := 127

def fieldValues (key : String) : Fields → List Tree
  | .field name v rest =>
    if name = some key then v :: fieldValues key rest else fieldValues key rest
  | _ => []

def withoutField (key : String) : Fields → Fields
  | .field name v rest =>
    if name = some key then withoutField key rest else .field name v (withoutField key rest)
  | fields => fields

/-- The tag `type` of a record and the other fields, of which the tag's rules speak. -/
def takeTagged (rulesOf : String → Option (List FieldRule)) (tree : Tree) :
    Except Fault (String × Found) := do
  let (tag, body) ←
    match tree with
    | .object fields =>
      match fieldValues "type" fields with
      | [.text (some tag)] => .ok (tag, .object (withoutField "type" fields))
      | _ => .error .unfit
    | .array (.item (.text (some tag)) rest) => .ok (tag, .array rest)
    | _ => .error .unfit
  match rulesOf tag with
  | none => .error .unfit
  | some rules => return (tag, ← takeRecord rules body)

def takeWholeTagged (rulesOf : String → Option (List FieldRule)) (tree : Tree) :
    Except Fault (String × Found) :=
  if tree.isWhole && tree.depth ≤ maxDepth then takeTagged rulesOf tree else .error .malformed

def tagged (tag : String) (fields : List (String × Tree)) : Tree :=
  .record (("type", .string tag) :: fields)

/-! ## Texts -/

def write {α : Type} [Wired α] (a : α) : String := (Wired.encode a).compact

def read {α : Type} [Wired α] (text : String) : Except Fault α := do
  let document := Document.read text
  let a ← Wired.decode .direct document.tree
  if document.isComplete then return a else .error .malformed

end Containment.Wire
