import Containment.Family
import Containment.Notice

/-!
# The registry

The table of all families, in slot order. A new family gets the last slot, and the slot of a
collected family is filled with the last one. Here are the look-ups and the two ways to write a slot
back; the changes and the queries built on them are in the modules beside this one.

A call on the registry is one step: it takes the table as it is, answers, and leaves a table behind,
with its notices and with whether those who wait for a change are woken.
-/

namespace Containment

/-- Capacities, decided once for the registry and all its families. -/
structure Limits where
  maxFamilies : UInt64 := 1024
  maxMembers : UInt64 := 1024
  maxFiles : UInt64 := 1024
  deriving DecidableEq

structure Registry where
  limits : Limits
  families : List Family := []
  deriving DecidableEq

structure Step (α : Type) where
  answer : α
  registry : Registry
  log : List Notice := []
  woken : Bool := false

/-! ## Slots -/

/-- The last item takes the place of the item at `index`. -/
def swapRemove {α : Type} (items : List α) (index : Nat) : List α :=
  match items.getLast? with
  | none => []
  | some last => (items.set index last).dropLast

theorem swapRemove_concat {α : Type} (items : List α) (last : α) (index : Nat) :
    swapRemove (items ++ [last]) index = ((items ++ [last]).set index last).dropLast := by
  simp [swapRemove]

theorem swapRemove_last {α : Type} (items : List α) (last : α) :
    swapRemove (items ++ [last]) items.length = items := by
  simp [swapRemove_concat]

theorem length_swapRemove {α : Type} (items : List α) (index : Nat) :
    (swapRemove items index).length = items.length - 1 := by
  unfold swapRemove
  cases h : items.getLast? with
  | none => simp [List.getLast?_eq_none_iff.1 h]
  | some last => simp

structure Slot where
  index : Nat
  family : Family

def Slot.find? (p : Family → Bool) : List Family → Option Slot
  | [] => none
  | f :: fs =>
    if p f then some ⟨0, f⟩ else (Slot.find? p fs).map fun slot => ⟨slot.index + 1, slot.family⟩

namespace Slot

theorem find?_eq_none {p : Family → Bool} {families : List Family} :
    find? p families = none ↔ ∀ f ∈ families, p f = false := by
  induction families with
  | nil => simp [find?]
  | cons f fs ih =>
    cases h : p f with
    | true => simp [find?, h]
    | false => simp [find?, h, ih]

theorem getElem?_of_find? {p : Family → Bool} {families : List Family} {slot : Slot}
    (h : find? p families = some slot) : families[slot.index]? = some slot.family := by
  induction families generalizing slot with
  | nil => simp [find?] at h
  | cons f fs ih =>
    cases hf : p f with
    | true =>
      simp only [find?, hf, if_true, Option.some.injEq] at h
      subst h; rfl
    | false =>
      simp only [find?, hf, Bool.false_eq_true, if_false, Option.map_eq_some_iff] at h
      obtain ⟨inner, h, rfl⟩ := h
      simpa using ih h

theorem satisfies_of_find? {p : Family → Bool} {families : List Family} {slot : Slot}
    (h : find? p families = some slot) : p slot.family = true := by
  induction families generalizing slot with
  | nil => simp [find?] at h
  | cons f fs ih =>
    cases hf : p f with
    | true =>
      simp only [find?, hf, if_true, Option.some.injEq] at h
      subst h; exact hf
    | false =>
      simp only [find?, hf, Bool.false_eq_true, if_false, Option.map_eq_some_iff] at h
      obtain ⟨inner, h, rfl⟩ := h
      have held := ih h
      exact held

end Slot

namespace Registry

/-- The slot table is one block of memory, which no address space holds from this size on. -/
def Fits (limits : Limits) : Prop := limits.maxFamilies.toNat < Nat.pow 2 56

instance (limits : Limits) : Decidable (Fits limits) := inferInstanceAs (Decidable (_ < _))

def empty (limits : Limits) : Registry := { limits }

def familyCount (reg : Registry) : Nat := reg.families.length

def slotOfRoot? (reg : Registry) (root : Pid) : Option Slot :=
  if root.isValid then Slot.find? (fun f => f.root == root) reg.families else none

def slotOfMember? (reg : Registry) (pid : Pid) : Option Slot :=
  Slot.find? (fun f => f.members.contains pid) reg.families

def slotOfFile? (reg : Registry) (file : FileId) : Option Slot :=
  Slot.find? (fun f => f.files.contains file) reg.families

/-- A root names its family even after it has left it. Any other pid names the family it is in. -/
def slotOfAnchor? (reg : Registry) (anchor : Pid) : Option Slot :=
  (reg.slotOfRoot? anchor).or (reg.slotOfMember? anchor)

def isBusyRoot (reg : Registry) (pid : Pid) : Bool :=
  match reg.slotOfRoot? pid with
  | some slot => slot.family.isLive && 1 < slot.family.members.count
  | none => false

/-! ## Writing a slot back -/

def put (reg : Registry) (index : Nat) (family : Family) : Registry :=
  { reg with families := reg.families.set index family }

def collect (reg : Registry) (index : Nat) : Registry :=
  { reg with families := swapRemove reg.families index }

/-- Writes back a family that has lost something, or collects it. Answers whether it is gone. -/
def settle (reg : Registry) (index : Nat) (family : Family) : Step Bool :=
  if family.isSpent then
    let reg := reg.collect index
    { answer := true, registry := reg, log := [.familyCollected family.root reg.familyCount]
      woken := true }
  else { answer := false, registry := reg.put index family, woken := true }

/-- Writes back a family that took an item, or reports why it did not. -/
def record (reg : Registry) (slot : Slot) (item : Item) (taken : Except Refusal Family) :
    Step (Except Refusal Unit) :=
  let root := slot.family.root
  match taken with
  | .ok family =>
    { answer := .ok (), registry := reg.put slot.index family, log := [.itemAdded root item] }
  | .error .alreadyExists => { answer := .error .alreadyExists, registry := reg }
  | .error .capacityExhausted =>
    { answer := .error .capacityExhausted, registry := reg, log := [.itemLimitReached root item] }
  | .error cause =>
    { answer := .error cause, registry := reg, log := [.itemRefused root item cause] }

def refuse (reg : Registry) (cause : Refusal) (log : List Notice := []) :
    Step (Except Refusal Unit) :=
  { answer := .error cause, registry := reg, log }

end Registry

end Containment
