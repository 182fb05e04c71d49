import Containment.Registry.Basic

/-!
# Changes of the registry

Founding a family, letting processes and files into one, and taking them out again. A family that
loses its last process or its last file may go with it. A process that wants to leave while it is
the root of a busy family is told to wait.
-/

namespace Containment

/-- How an exit ended. `timedOut` says that the process is still the root of a busy family. -/
inductive Departure where
  | settled (removed : Bool)
  | timedOut
  deriving DecidableEq

namespace Registry

/-! ## Taking in -/

def found (allocates : Allocator) (reg : Registry) (root : Pid) (origin : FileId)
    (policy : Policy) : Step (Except Refusal Unit) :=
  if !root.isValid then reg.refuse .invalidItem
  else if reg.families.any fun f => f.root == root || f.members.contains root then
    reg.refuse .forbidden
  else if reg.limits.maxFamilies.toNat ≤ reg.familyCount then
    reg.refuse .capacityExhausted [.familyLimitReached root reg.limits.maxFamilies]
  else
    match Family.founded allocates root origin policy reg.limits.maxMembers.toNat
        reg.limits.maxFiles.toNat with
    | .error cause => reg.refuse cause
    | .ok family =>
      let reg := { reg with families := reg.families ++ [family] }
      { answer := .ok (), registry := reg
        log := [.familyFounded root origin policy reg.familyCount] }

def enrollAt (allocates : Allocator) (reg : Registry) (slot : Slot) (pid : Pid) :
    Step (Except Refusal Unit) :=
  if (reg.slotOfMember? pid).any fun other => other.index != slot.index then
    reg.refuse .forbidden
  else reg.record slot (.member pid) (slot.family.enroll allocates pid)

def enroll (allocates : Allocator) (reg : Registry) (child anchor : Pid) :
    Step (Except Refusal Unit) :=
  if !child.isValid || !anchor.isValid then reg.refuse .invalidItem
  else
    match reg.slotOfAnchor? anchor with
    | none => reg.refuse .noParent
    | some slot => reg.enrollAt allocates slot child

/-- Lets a process that executes `file` into the family owning it. -/
def adopt (allocates : Allocator) (reg : Registry) (pid : Pid) (file : FileId) :
    Step (Except Refusal Unit) :=
  if !pid.isValid || !file.isValid then reg.refuse .invalidItem
  else
    match reg.slotOfFile? file with
    | none => reg.refuse .noParent
    | some slot => reg.enrollAt allocates slot pid

def claimAt (allocates : Allocator) (reg : Registry) (slot : Slot) (file : FileId) :
    Step (Except Refusal Unit) :=
  reg.record slot (.file file) (slot.family.claim allocates file)

/-- Takes `file` from a holder without processes before the family at `slot` claims it. When the
holder is collected and the claimant had the last slot, the claimant now has the holder's. -/
def reclaim (allocates : Allocator) (reg : Registry) (slot holder : Slot) (file : FileId) :
    Step (Except Refusal Unit) :=
  let freed := reg.settle holder.index (holder.family.disown file)
  let index :=
    if freed.answer && slot.index == freed.registry.familyCount then holder.index else slot.index
  let granted := freed.registry.claimAt allocates { slot with index } file
  { granted with
    log := .fileReclaimed file holder.family.root :: (freed.log ++ granted.log), woken := true }

def claim (allocates : Allocator) (reg : Registry) (file : FileId) (owner : Pid) :
    Step (Except Refusal Unit) :=
  if !file.isValid || !owner.isValid then reg.refuse .invalidItem
  else
    match reg.slotOfAnchor? owner with
    | none => reg.refuse .noParent
    | some slot =>
      match reg.slotOfFile? file with
      | none => reg.claimAt allocates slot file
      | some holder =>
        if holder.index = slot.index then reg.claimAt allocates slot file
        else if holder.family.members.isEmpty then reg.reclaim allocates slot holder file
        else reg.refuse .forbidden

/-! ## Taking out -/

def dismiss (reg : Registry) (pid : Pid) : Step Bool :=
  if !pid.isValid then { answer := false, registry := reg }
  else
    match reg.slotOfMember? pid with
    | none => { answer := false, registry := reg }
    | some slot => { reg.settle slot.index (slot.family.dismiss pid) with answer := true }

def disown (reg : Registry) (file : FileId) : Step Bool :=
  if !file.isValid then { answer := false, registry := reg }
  else
    match reg.slotOfFile? file with
    | none => { answer := false, registry := reg }
    | some slot => { reg.settle slot.index (slot.family.disown file) with answer := true }

/-- One attempt of `pid` to leave. Whoever has to wait tries again when something has changed. -/
def leave (reg : Registry) (pid : Pid) : Step Departure :=
  if reg.isBusyRoot pid then { answer := .timedOut, registry := reg }
  else
    let gone := reg.dismiss pid
    { gone with answer := .settled gone.answer }

def reset (reg : Registry) : Step Unit :=
  { answer := (), registry := { reg with families := [] }, woken := true }

end Registry

end Containment
