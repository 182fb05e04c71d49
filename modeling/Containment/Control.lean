import Containment.Script

/-!
# Control

The requests of the management side and what the registry does for them. A registration that cannot
get its origin takes back the family it founded, and a termination goes through the members one by
one, the root last.
-/

namespace Containment

inductive Request where
  | register (pid : Pid) (origin : FileId) (policy : Policy)
  | unregister (pid : Pid)
  | terminate (pid : Pid)
  | listMembers (pid : Pid)
  | listFiles (pid : Pid)
  /-- A wait of 0 milliseconds has no limit. -/
  | wait (pid : Pid) (milliseconds : UInt64)
  deriving DecidableEq

inductive Response where
  | registered (root : Pid)
  | unregistered (removed : Bool)
  | terminated (pids : List Pid)
  | members (pids : List Pid)
  | files (files : List FileId)
  | waited (timedOut removed : Bool)
  deriving DecidableEq

inductive ControlError where
  | refused (cause : Refusal)
  | notRunning (pid : Pid)
  | termination (pid : Pid) (failure : TerminationFailure)
  deriving DecidableEq

namespace ControlError

def message : ControlError → String
  | .refused cause => cause.message
  | .notRunning pid => s!"process {pid} is not running"
  | .termination pid _ => s!"failed to terminate process {pid}"

def causes : ControlError → List String
  | .refused _ | .notRunning _ => []
  | .termination _ failure => failure.causes

end ControlError

namespace Request

/-- Founds the family of `pid`. It is no error that `pid` is a root already, and the answer tells
whether the family is new. -/
def foundOnce (pid : Pid) (origin : FileId) (policy : Policy) : Script (Except Refusal Bool) := do
  match ← Script.ask (.found pid origin policy) with
  | .ok () => return .ok true
  | .error .forbidden =>
    let root ← Script.ask (.rootOf pid)
    return if root = pid then .ok false else .error .forbidden
  | .error cause => return .error cause

def claimOrigin (pid : Pid) (origin : FileId) : Script (Except Refusal Unit) := do
  if origin.isValid then return orExisting (← Script.ask (.claim origin pid))
  else return .ok ()

def perform (pid : Pid) (origin : FileId) (policy : Policy) :
    Script (Except ControlError Response) := do
  match ← foundOnce pid origin policy with
  | .error cause => return .error (.refused cause)
  | .ok isNew =>
    match ← claimOrigin pid origin with
    | .ok () =>
      Script.say (.processWatched pid policy)
      return .ok (.registered pid)
    | .error cause =>
      if isNew then discard (Script.ask (.dismiss pid))
      Script.say (.originUnavailable pid origin cause)
      return .error (.refused cause)

def registration (pid : Pid) (origin : FileId) (policy : Policy) :
    Script (Except ControlError Response) := do
  if !pid.isValid then return .error (.refused .invalidItem)
  else if ← Script.isRunning pid then perform pid origin policy
  else return .error (.notRunning pid)

/-- Stops at the first process that cannot be terminated. -/
def terminateEach : List Pid → Script (Except ControlError Unit)
  | [] => return .ok ()
  | pid :: rest => do
    match ← Script.terminate pid with
    | .error failure => return .error (.termination pid failure)
    | .ok () =>
      discard (Script.ask (.dismiss pid))
      terminateEach rest

/-- The members in ascending order with the root moved to the end, so that it never waits. -/
def rootLast (root : Pid) (members : List Pid) : List Pid :=
  members.filter (· != root) ++ members.filter (· == root)

def termination (pid : Pid) : Script (Except ControlError Response) := do
  let root ← Script.ask (.rootOf pid)
  if !root.isValid then return .error (.refused .noParent)
  else
    let pids := rootLast root (← Script.ask (.members root))
    match ← terminateEach pids with
    | .error e => return .error e
    | .ok () =>
      Script.say (.familyTerminated root pids.length)
      return .ok (.terminated pids)

def dispatch : Request → Script (Except ControlError Response)
  | .register pid origin policy => registration pid origin policy
  | .unregister pid => do return .ok (.unregistered (← Script.ask (.dismiss pid)))
  | .terminate pid => termination pid
  | .listMembers pid => do return .ok (.members (← Script.ask (.members pid)))
  | .listFiles pid => do return .ok (.files (← Script.ask (.files pid)))
  | .wait pid milliseconds => do
    match ← Script.wait pid (waitLimit milliseconds) with
    | .settled removed => return .ok (.waited false removed)
    | .timedOut => return .ok (.waited true false)

end Request

end Containment
