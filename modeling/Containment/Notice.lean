import Containment.Access.Mask
import Containment.Policy
import Containment.Refusal
import Containment.Termination

/-!
# Notices

What the registry and its callers say about their work, with the level and the wording of each
notice.
-/

namespace Containment

inductive Level where
  | error
  | warn
  | info
  | debug
  | trace
  deriving DecidableEq

def Level.text : Level → String
  | .error => "error"
  | .warn => "warn"
  | .info => "info"
  | .debug => "debug"
  | .trace => "trace"

/-- What a family can be asked to take. -/
inductive Item where
  | member (pid : Pid)
  | file (id : FileId)
  deriving DecidableEq

def Item.text : Item → String
  | .member pid => s!"member {pid}"
  | .file id => s!"file {id}"

instance : ToString Item := ⟨Item.text⟩

inductive Notice where
  | familyLimitReached (root : Pid) (limit : UInt64)
  | familyFounded (root : Pid) (origin : FileId) (policy : Policy) (families : Nat)
  | familyCollected (root : Pid) (families : Nat)
  | fileReclaimed (file : FileId) (holder : Pid)
  | itemAdded (root : Pid) (item : Item)
  | itemLimitReached (root : Pid) (item : Item)
  | itemRefused (root : Pid) (item : Item) (cause : Refusal)
  | exitRequested (pid : Pid) (others : Nat)
  | exitTimedOut (pid : Pid)
  | exitPermitted (pid : Pid)
  | processWatched (pid : Pid) (policy : Policy)
  | originUnavailable (pid : Pid) (origin : FileId) (cause : Refusal)
  | familyTerminated (root : Pid) (processes : Nat)
  | threadCreated (creator target : Pid)
  | droppedFileExecuted (pid : Pid) (file : FileId) (holder : Pid)
  | exitedRootForgotten (pid : Pid)
  | notTracked (pid : Pid) (cause : Refusal)
  | processTerminated (pid : Pid) (cause : Refusal)
  | terminationFailed (pid : Pid) (failure : TerminationFailure)
  | familyProcessOpened (source target : Pid)
  | foreignProcessOpened (source target : Pid) (asked granted : ProcessAccess)
  | fileUnidentified (pid : Pid) (asked : FileAccess)
  | newFileRefused (pid : Pid) (file : FileId) (cause : Refusal)
  | newFileCreated (pid : Pid) (file : FileId)
  | ownFileWritten (pid : Pid) (file : FileId)
  | foreignFileOpened (pid : Pid) (asked : FileAccess) (file : FileId)
  | ownFileDeleted (pid : Pid) (file : FileId)
  | foreignFileDeleted (pid : Pid) (file : FileId)
  | deletedFileReleased (file : FileId)
  | pathUnidentified (path cause : String)
  deriving DecidableEq

namespace Notice

def level : Notice → Level
  | .familyLimitReached .. | .itemLimitReached .. | .originUnavailable .. => .warn
  | .droppedFileExecuted .. | .exitedRootForgotten .. => .warn
  | .familyFounded .. | .familyCollected .. | .fileReclaimed .. | .itemRefused .. => .debug
  | .exitRequested .. | .exitTimedOut .. | .exitPermitted .. | .threadCreated .. => .debug
  | .newFileCreated .. | .ownFileWritten .. | .ownFileDeleted .. => .debug
  | .deletedFileReleased .. | .pathUnidentified .. => .debug
  | .itemAdded .. | .familyProcessOpened .. => .trace
  | .processWatched .. | .familyTerminated .. | .notTracked .. | .processTerminated .. => .info
  | .foreignProcessOpened .. | .fileUnidentified .. | .newFileRefused .. => .info
  | .foreignFileOpened .. | .foreignFileDeleted .. => .info
  | .terminationFailed .. => .error

def text : Notice → String
  | .familyLimitReached root limit => s!"cannot watch {root}: family limit ({limit}) reached"
  | .familyFounded root origin policy families =>
    s!"watching family {root} (origin {origin}, {policy}), {families} families"
  | .familyCollected root families => s!"family {root} exited, {families} families left"
  | .fileReclaimed file holder => s!"file {file} reclaimed from exited family {holder}"
  | .itemAdded root item => s!"[{root}] added {item}"
  | .itemLimitReached root item => s!"[{root}] cannot add {item}: limit exhausted"
  | .itemRefused root item cause => s!"[{root}] cannot add {item}: {cause}"
  | .exitRequested pid others =>
    s!"[{pid}] exit requested, waiting for {others} remaining members"
  | .exitTimedOut pid => s!"[{pid}] exit wait timed out"
  | .exitPermitted pid => s!"[{pid}] exit permitted"
  | .processWatched pid policy => s!"watching process {pid} ({policy})"
  | .originUnavailable pid origin cause =>
    s!"cannot register {pid}: origin {origin} unavailable: {cause}"
  | .familyTerminated root processes => s!"terminated family {root}: {processes} processes"
  | .threadCreated creator target => s!"[{creator}] created a thread in {target}"
  | .droppedFileExecuted pid file holder =>
    s!"[{pid}] executing {file} dropped by exited family {holder}"
  | .exitedRootForgotten pid => s!"[{pid}] children still running, forgetting exited root"
  | .notTracked pid cause => s!"[{pid}] not tracked: {cause}"
  | .processTerminated pid cause => s!"[{pid}] terminated: {cause}"
  | .terminationFailed pid failure => s!"[{pid}] termination failed: {failure.message}"
  | .familyProcessOpened source target => s!"[{source}] opening family process {target}"
  | .foreignProcessOpened source target asked granted =>
    s!"[{source}] opening foreign process {target} for {asked}, reduced to {granted}"
  | .fileUnidentified pid asked => s!"[{pid}] cannot identify file opened for {asked}, denied"
  | .newFileRefused pid file cause => s!"[{pid}] cannot own new file {file}: {cause}, denied"
  | .newFileCreated pid file => s!"[{pid}] created file {file}"
  | .ownFileWritten pid file => s!"[{pid}] writing owned file {file}"
  | .foreignFileOpened pid asked file => s!"[{pid}] {asked} on foreign file {file}, denied"
  | .ownFileDeleted pid file => s!"[{pid}] deleting owned file {file}"
  | .foreignFileDeleted pid file => s!"[{pid}] deleting foreign file {file}, denied"
  | .deletedFileReleased file => s!"released deleted file {file}"
  | .pathUnidentified path cause => s!"cannot identify {path}: {cause}"

end Notice

end Containment
