import Containment.Script

/-!
# Sessions

A registry at work. Scripts run one after the other, and one that has to wait for a process to leave
stays behind in the background. Whenever a script has run, each process that waits tries again, and
those that may leave now are released. Nobody is told what a released script would have gone on to
do, as nothing but its answer is left.
-/

namespace Containment

structure Session where
  registry : Registry
  /-- The processes that wait to leave, in the order in which they came. -/
  waiting : List Pid := []

/-! ## Releases -/

/-- A process that waits no longer, and whether a family has lost it. -/
structure Release where
  pid : Pid
  removed : Bool
  deriving DecidableEq

namespace Release

/-- By pid, and of one pid those that found it gone first. -/
def comesBefore (a b : Release) : Bool :=
  if a.pid = b.pid then !a.removed || b.removed else a.pid < b.pid

end Release

structure Releases where
  session : Session
  released : List Release := []
  log : List Notice := []

namespace Releases

def retry (r : Releases) (pid : Pid) : Releases :=
  let step := r.session.registry.leave pid
  match step.answer with
  | .timedOut => { r with session.waiting := r.session.waiting ++ [pid] }
  | .settled removed =>
    { session := { r.session with registry := step.registry }
      released := r.released ++ [{ pid, removed }]
      log := r.log ++ step.log ++ [.exitPermitted pid] }

end Releases

namespace Session

def start (limits : Limits) : Session := { registry := .empty limits }

/-- Lets all who wait try again, in the order in which they came. -/
def release (s : Session) : Releases :=
  s.waiting.foldl Releases.retry { session := { s with waiting := [] } }

/-! ## Running scripts -/

/-- What came of a script, and of those who were waiting. -/
structure Outcome (α : Type) where
  /-- Without an answer the script waits in the background. -/
  answer : Option α
  session : Session
  log : List Notice
  killed : List Pid
  released : List Release

def perform {α : Type} (host : Host) (s : Session) (script : Script α) : Outcome α :=
  let run := script.run host s.registry
  let (answer, waiting) :=
    match run.progress with
    | .finished answer => (some answer, s.waiting)
    | .waiting pid _ => (none, s.waiting ++ [pid])
  let releases := Session.release { registry := run.registry, waiting }
  { answer
    session := releases.session
    log := run.log ++ releases.log
    killed := run.killed
    released := releases.released.mergeSort Release.comesBefore }

/-- Empties the registry, so that nobody has to wait any longer. -/
def close (host : Host) (s : Session) : Outcome Unit := s.perform host (Script.ask .reset)

end Session

end Containment
