import Containment.Registry.Change
import Containment.Registry.Query

/-!
# Calls

Every question to the registry and every change of it as one datatype, so that sequences of calls
can be spoken of. `Registry.exec` is what a call does, and `Registry.Reachable` are the registries
that calls lead to from an empty one.
-/

namespace Containment

inductive Call where
  | found (root : Pid) (origin : FileId) (policy : Policy)
  | enroll (child anchor : Pid)
  | claim (file : FileId) (owner : Pid)
  | adopt (pid : Pid) (file : FileId)
  | dismiss (pid : Pid)
  | disown (file : FileId)
  | leave (pid : Pid)
  | reset
  | tracks (pid : Pid)
  | related (first second : Pid)
  | rootOf (pid : Pid)
  | rootOfFile (file : FileId)
  | owns (pid : Pid) (file : FileId)
  | hasRoomForFile (pid : Pid)
  | wouldWait (pid : Pid)
  | memberCount (root : Pid)
  | familyCount
  | members (root : Pid)
  | files (root : Pid)
  | fillMembers (root : Pid) (buffer : List Pid)
  | fillFiles (root : Pid) (buffer : List FileId)
  | summaries
  deriving DecidableEq

@[reducible] def Call.Answer : Call → Type
  | .found .. | .enroll .. | .claim .. | .adopt .. => Except Refusal Unit
  | .dismiss _ | .disown _ => Bool
  | .leave _ => Departure
  | .reset => Unit
  | .tracks _ | .related .. | .owns .. | .hasRoomForFile _ | .wouldWait _ => Bool
  | .rootOf _ | .rootOfFile _ => Pid
  | .memberCount _ | .familyCount => Nat
  | .members _ => List Pid
  | .files _ => List FileId
  | .fillMembers .. => Nat × List Pid
  | .fillFiles .. => Nat × List FileId
  | .summaries => List Summary

namespace Registry

/-- A question leaves the registry as it is, says nothing and wakes nobody. -/
def ask {α : Type} (reg : Registry) (answer : α) : Step α := { answer, registry := reg }

def exec (allocates : Allocator) (reg : Registry) : (call : Call) → Step call.Answer
  | .found root origin policy => reg.found allocates root origin policy
  | .enroll child anchor => reg.enroll allocates child anchor
  | .claim file owner => reg.claim allocates file owner
  | .adopt pid file => reg.adopt allocates pid file
  | .dismiss pid => reg.dismiss pid
  | .disown file => reg.disown file
  | .leave pid => reg.leave pid
  | .reset => reg.reset
  | .tracks pid => reg.ask (reg.tracks pid)
  | .related first second => reg.ask (reg.related first second)
  | .rootOf pid => reg.ask (reg.rootOf pid)
  | .rootOfFile file => reg.ask (reg.rootOfFile file)
  | .owns pid file => reg.ask (reg.owns pid file)
  | .hasRoomForFile pid => reg.ask (reg.hasRoomForFile pid)
  | .wouldWait pid => reg.ask (reg.isBusyRoot pid)
  | .memberCount root => reg.ask (reg.memberCount root)
  | .familyCount => reg.ask reg.familyCount
  | .members root => reg.ask (reg.members root)
  | .files root => reg.ask (reg.files root)
  | .fillMembers root buffer => reg.ask (reg.fillMembers root buffer)
  | .fillFiles root buffer => reg.ask (reg.fillFiles root buffer)
  | .summaries => reg.ask reg.summaries

def execAll (allocates : Allocator) (reg : Registry) (calls : List Call) : Registry :=
  calls.foldl (fun reg call => (reg.exec allocates call).registry) reg

inductive Reachable (allocates : Allocator) (limits : Limits) : Registry → Prop
  | empty : Reachable allocates limits (.empty limits)
  | call {reg : Registry} (call : Call) :
    Reachable allocates limits reg → Reachable allocates limits (reg.exec allocates call).registry

end Registry

end Containment
