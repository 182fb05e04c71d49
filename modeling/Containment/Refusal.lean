/-!
# Refusals

Why a set, a family or the registry did not take an item. The set's cause goes up unchanged to the
registry's caller.
-/

namespace Containment

inductive Refusal where
  | invalidItem
  | alreadyExists
  | capacityExhausted
  | noParent
  | forbidden
  | uninitialized
  | treeDead
  deriving DecidableEq

namespace Refusal

def message : Refusal → String
  | .invalidItem => "invalid item"
  | .alreadyExists => "item already exists"
  | .capacityExhausted => "capacity exhausted"
  | .noParent => "no family contains the parent process"
  | .forbidden => "operation forbidden by ownership rules"
  | .uninitialized => "storage could not be allocated"
  | .treeDead => "the family root has exited"

instance : ToString Refusal := ⟨message⟩

end Refusal

/-- For callers to whom an item that is there already is as good as one just added. -/
def orExisting : Except Refusal Unit → Except Refusal Unit
  | .error .alreadyExists => .ok ()
  | answer => answer

end Containment
