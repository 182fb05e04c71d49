import Containment.Script

/-!
# Machines

The machines that scripts run on, as tables of the processes they have. Storage is allocated up to
the size of an address space, and a time limit of a tenth of a second ends a wait before anything
else can happen.
-/

namespace Containment

structure Machine where
  /-- The processes that are running. Without a list every process is. -/
  running : Option (List Pid) := none
  /-- The processes that cannot be terminated, and why. -/
  unkillable : List (Pid × TerminationFailure) := []

namespace Machine

def addressable : Allocator := fun capacity => capacity < Nat.pow 2 61

def isBrief (milliseconds : UInt64) : Bool := milliseconds ≤ 100

def isRunning (m : Machine) (pid : Pid) : Bool := m.running.all fun pids => pids.contains pid

def terminate (m : Machine) (pid : Pid) : Except TerminationFailure Unit :=
  match m.unkillable.lookup pid with
  | some failure => .error failure
  | none => .ok ()

/-- The machine once the processes in `pids` are gone. -/
def without (m : Machine) (pids : List Pid) : Machine :=
  { m with running := m.running.map fun running => running.filter fun pid => !pids.contains pid }

def host (m : Machine) : Host where
  allocates := addressable
  isRunning := m.isRunning
  terminate := m.terminate
  elapses := isBrief

/-- The host of a machine that knows its processes by signed numbers only. A process that is gone
already counts as terminated. -/
def signedHost (m : Machine) : Host where
  allocates := addressable
  isRunning pid := pid.signed?.isSome && m.isRunning pid
  terminate pid := if pid.signed?.isSome then m.terminate pid else .error .invalidPid
  elapses := isBrief

end Machine

end Containment
