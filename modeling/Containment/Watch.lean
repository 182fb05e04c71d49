import Containment.Script

/-!
# Watching processes

What happens to processes, as the process feed reports it, and what is done about it. A process that
the registry takes is attached. One that it refuses is left alone, rejected or terminated, as the
cause and the settings say. An exit waits until the process may leave.
-/

namespace Containment

inductive ProcessEvent where
  /-- `creator` asked for the process. It is not `parent` for a process spawned on behalf. -/
  | created (pid parent creator : Pid)
  | threadCreated (creator target : Pid)
  | imageLoaded (pid : Pid) (file : FileId)
  | exited (pid : Pid)
  deriving DecidableEq

inductive Reaction where
  | ignored
  | attached (root : Pid)
  | rejected (cause : Refusal)
  | terminated (pid : Pid) (cause : Refusal)
  | exited (departure : Departure)
  deriving DecidableEq

structure WatchSettings where
  /-- Milliseconds that an exiting root waits for its family; without them it waits on. -/
  exitLimit : Option UInt64 := none
  terminateOnExhaustion : Bool := true
  blockRespawn : Bool := true
  deriving DecidableEq

namespace ProcessEvent

def pid : ProcessEvent → Pid
  | .created pid _ _ => pid
  | .threadCreated _ target => target
  | .imageLoaded pid _ => pid
  | .exited pid => pid

/-- Whether a refused process is to be terminated. -/
def deserves (settings : WatchSettings) (blocksDead : Bool) : Refusal → Bool
  | .capacityExhausted => settings.terminateOnExhaustion
  | .treeDead => blocksDead
  | _ => false

def refused (settings : WatchSettings) (pid : Pid) (cause : Refusal) (blocksDead : Bool) :
    Script Reaction := do
  if deserves settings blocksDead cause then
    match ← Script.terminate pid with
    | .ok () =>
      Script.say (.processTerminated pid cause)
      return .terminated pid cause
    | .error failure =>
      Script.say (.terminationFailed pid failure)
      return .rejected cause
  else
    Script.say (.notTracked pid cause)
    return .rejected cause

def react (settings : WatchSettings) (pid : Pid) (answer : Except Refusal Unit)
    (blocksDead : Bool) : Script Reaction := do
  match answer with
  | .ok () | .error .alreadyExists => return .attached (← Script.ask (.rootOf pid))
  | .error .noParent | .error .invalidItem => return .ignored
  | .error cause => refused settings pid cause blocksDead

/-- The parent's family first; where that one does not take the process, the creator's. -/
def enrollChild (pid parent creator : Pid) : Script (Except Refusal Unit) := do
  match ← Script.ask (.enroll pid parent) with
  | .ok () => return .ok ()
  | .error .alreadyExists => return .error .alreadyExists
  | .error cause =>
    if creator.isValid && creator != parent then Script.ask (.enroll pid creator)
    else return .error cause

def handle (settings : WatchSettings) : ProcessEvent → Script Reaction
  | .created pid parent creator => do
    react settings pid (← enrollChild pid parent creator) false
  | .threadCreated creator target => do
    if creator = target then return .ignored
    else if ← Script.ask (.tracks creator) then
      Script.say (.threadCreated creator target)
      react settings target (← Script.ask (.enroll target creator)) false
    else return .ignored
  | .imageLoaded pid file => do
    if !file.isValid then return .ignored
    else
      let answer ← Script.ask (.adopt pid file)
      if answer matches .error .treeDead then
        Script.say (.droppedFileExecuted pid file (← Script.ask (.rootOfFile file)))
      react settings pid answer settings.blockRespawn
  | .exited pid => do
    let departure ← Script.wait pid settings.exitLimit
    if departure = .timedOut then
      Script.say (.exitedRootForgotten pid)
      discard (Script.ask (.dismiss pid))
    return .exited departure

end ProcessEvent

end Containment
