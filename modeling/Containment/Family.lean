import Containment.BoundedSet
import Containment.Ident
import Containment.Policy

/-!
# Families

A root process, the processes that belong to it and the files they created. The family is live while
its root is a member. Once the root is gone the family takes nothing but its root back, and it only
shrinks. It is spent when nothing keeps it in the registry.
-/

namespace Containment

structure Family where
  root : Pid
  origin : FileId
  policy : Policy
  members : BoundedSet Pid
  files : BoundedSet FileId
  deriving DecidableEq

/-- What is known of a family at one moment, in the words of the management interface. -/
structure Summary where
  root : Pid
  origin : FileId
  policy : Policy
  live : Bool
  members : UInt64
  files : UInt64
  deriving DecidableEq

namespace Family

def blank (root : Pid) (origin : FileId) (policy : Policy) (maxMembers maxFiles : Nat) :
    Family where
  root := root
  origin := origin
  policy := policy
  members := { capacity := maxMembers }
  files := { capacity := maxFiles }

def isLive (f : Family) : Bool := f.members.contains f.root

def isSpent (f : Family) : Bool :=
  f.members.isEmpty &&
    match f.policy with
    | .noRestriction => true
    | .protectDroppedFiles => f.files.isEmpty

def hasRoomForFile (f : Family) : Bool := f.isLive && f.files.hasRoom

def prepare (allocates : Allocator) (f : Family) : Except Refusal Family := do
  let members ← f.members.prepare allocates
  let files ← f.files.prepare allocates
  return { f with members, files }

def enroll (allocates : Allocator) (f : Family) (pid : Pid) : Except Refusal Family :=
  if pid != f.root && !f.isLive then .error .treeDead
  else (f.members.insert allocates pid).map fun members => { f with members }

def claim (allocates : Allocator) (f : Family) (file : FileId) : Except Refusal Family :=
  if !f.isLive then .error .treeDead
  else (f.files.insert allocates file).map fun files => { f with files }

def dismiss (f : Family) (pid : Pid) : Family := { f with members := f.members.erase pid }

def disown (f : Family) (file : FileId) : Family := { f with files := f.files.erase file }

def release (f : Family) : Family :=
  { f with members := f.members.release, files := f.files.release }

def summary (f : Family) : Summary where
  root := f.root
  origin := f.origin
  policy := f.policy
  live := f.isLive
  members := UInt64.ofNat f.members.count
  files := UInt64.ofNat f.files.count

def founded (allocates : Allocator) (root : Pid) (origin : FileId) (policy : Policy)
    (maxMembers maxFiles : Nat) : Except Refusal Family := do
  let f ← (blank root origin policy maxMembers maxFiles).prepare allocates
  f.enroll allocates root

end Family

end Containment
