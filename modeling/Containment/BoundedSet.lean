import Containment.Refusal

/-!
# Bounded sets

A set of at most `capacity` keys, listed in ascending order. Its storage is allocated with the first
key, or ahead of it by `prepare`, and released with the last one. Whether storage for a capacity can
be allocated is given by an `Allocator`. A refused key leaves the set as it was.
-/

namespace Containment

/-- Tells for which capacities storage can be allocated. -/
abbrev Allocator := Nat → Bool

structure BoundedSet (α : Type) where
  capacity : Nat
  storage : Option (List α) := none
  deriving DecidableEq

namespace BoundedSet

variable {α : Type}

def items (s : BoundedSet α) : List α := s.storage.getD []

def count (s : BoundedSet α) : Nat := s.items.length

def isEmpty (s : BoundedSet α) : Bool := s.items.isEmpty

def hasRoom (s : BoundedSet α) : Bool := s.count < s.capacity

def prepare (allocates : Allocator) (s : BoundedSet α) : Except Refusal (BoundedSet α) :=
  match s.storage with
  | some _ => .ok s
  | none =>
    if allocates s.capacity then .ok { s with storage := some [] } else .error .uninitialized

def release (s : BoundedSet α) : BoundedSet α := { s with storage := none }

/-- The first `buffer.length` keys, then `filler` up to that length, and the number of keys. -/
def fill (filler : α) (s : BoundedSet α) (buffer : List α) : Nat × List α :=
  let copied := min s.count buffer.length
  (copied, s.items.take copied ++ List.replicate (buffer.length - copied) filler)

section Ascending

variable [LT α] [DecidableLT α]

def insertAscending (key : α) : List α → List α
  | [] => [key]
  | x :: xs => if key < x then key :: x :: xs else x :: insertAscending key xs

theorem mem_insertAscending {key x : α} {xs : List α} :
    x ∈ insertAscending key xs ↔ x = key ∨ x ∈ xs := by
  induction xs with
  | nil => simp [insertAscending]
  | cons y ys ih =>
    simp only [insertAscending]; split
    · simp
    · simp only [List.mem_cons, ih]
      exact or_left_comm

theorem length_insertAscending {key : α} {xs : List α} :
    (insertAscending key xs).length = xs.length + 1 := by
  induction xs with
  | nil => rfl
  | cons y ys ih => simp only [insertAscending]; split <;> simp [ih]

end Ascending

variable [DecidableEq α]

def contains (s : BoundedSet α) (key : α) : Bool := s.items.contains key

def erase (s : BoundedSet α) (key : α) : BoundedSet α :=
  if s.contains key then
    let rest := s.items.erase key
    { s with storage := if rest.isEmpty then none else some rest }
  else s

variable [LT α] [DecidableLT α]

def insert (allocates : Allocator) (s : BoundedSet α) (key : α) :
    Except Refusal (BoundedSet α) := do
  let s ← s.prepare allocates
  if s.contains key then .error .alreadyExists
  else if s.capacity ≤ s.count then .error .capacityExhausted
  else .ok { s with storage := some (insertAscending key s.items) }

end BoundedSet

end Containment
