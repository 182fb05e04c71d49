import Containment.Registry.Call

/-!
# Scripts

What a caller of the registry does: calls, each of them one step on the registry, and between them
notices, looks at processes and terminations. As a script is a value, it can be run on its own
(`Script.run`) or call by call with others in between. A script that has to wait for a process to
leave stops there, and `Script.run` hands out the rest.
-/

namespace Containment

/-- What scripts need to know of the machine they run on. -/
structure Host where
  allocates : Allocator
  isRunning : Pid → Bool
  terminate : Pid → Except TerminationFailure Unit
  /-- Whether a time limit, in milliseconds, ends a wait before anything else happens. -/
  elapses : UInt64 → Bool

/-- A limit of 0 milliseconds stands for none. -/
def waitLimit (milliseconds : UInt64) : Option UInt64 :=
  if milliseconds = 0 then none else some milliseconds

inductive Script (α : Type) where
  | done (answer : α)
  | call (call : Call) (next : call.Answer → Script α)
  | await (pid : Pid) (limit : Option UInt64) (next : Departure → Script α)
  | note (notice : Notice) (next : Script α)
  | probe (pid : Pid) (next : Bool → Script α)
  | kill (pid : Pid) (next : Except TerminationFailure Unit → Script α)

namespace Script

variable {α β : Type}

protected def bind : Script α → (α → Script β) → Script β
  | .done answer, k => k answer
  | .call c next, k => .call c fun answer => (next answer).bind k
  | .await pid limit next, k => .await pid limit fun departure => (next departure).bind k
  | .note notice next, k => .note notice (next.bind k)
  | .probe pid next, k => .probe pid fun running => (next running).bind k
  | .kill pid next, k => .kill pid fun result => (next result).bind k

instance : Monad Script where
  pure := .done
  bind := Script.bind

theorem bind_done (s : Script α) : s.bind .done = s := by
  induction s with
  | done => rfl
  | call c next ih => exact congrArg _ (funext ih)
  | await pid limit next ih => exact congrArg _ (funext ih)
  | note notice next ih => exact congrArg _ ih
  | probe pid next ih => exact congrArg _ (funext ih)
  | kill pid next ih => exact congrArg _ (funext ih)

theorem bind_bind {γ : Type} (s : Script α) (f : α → Script β) (g : β → Script γ) :
    (s.bind f).bind g = s.bind fun a => (f a).bind g := by
  induction s with
  | done => rfl
  | call c next ih => exact congrArg _ (funext ih)
  | await pid limit next ih => exact congrArg _ (funext ih)
  | note notice next ih => exact congrArg _ ih
  | probe pid next ih => exact congrArg _ (funext ih)
  | kill pid next ih => exact congrArg _ (funext ih)

instance : LawfulMonad Script :=
  LawfulMonad.mk' Script bind_done (fun _ _ => rfl) bind_bind

/-! ## The steps of a script -/

def ask (c : Call) : Script c.Answer := .call c .done

def wait (pid : Pid) (limit : Option UInt64) : Script Departure := .await pid limit .done

def say (notice : Notice) : Script Unit := .note notice (.done ())

def isRunning (pid : Pid) : Script Bool := .probe pid .done

def terminate (pid : Pid) : Script (Except TerminationFailure Unit) := .kill pid .done

/-! ## Running -/

inductive Progress (α : Type) where
  | finished (answer : α)
  | waiting (pid : Pid) (next : Departure → Script α)

structure Run (α : Type) where
  progress : Progress α
  registry : Registry
  log : List Notice := []
  killed : List Pid := []
  woken : Bool := false

/-- Puts what has already happened in front of a run. -/
def Run.after (log : List Notice) (killed : List Pid) (woken : Bool) (run : Run α) : Run α :=
  { run with log := log ++ run.log, killed := killed ++ run.killed, woken := woken || run.woken }

/-- How many members besides itself keep the root of a family from leaving. -/
def others (reg : Registry) (pid : Pid) : Nat := reg.memberCount pid - 1

def run (host : Host) : Script α → Registry → Run α
  | .done answer, reg => { progress := .finished answer, registry := reg }
  | .call c next, reg =>
    let step := reg.exec host.allocates c
    ((next step.answer).run host step.registry).after step.log [] step.woken
  | .await pid limit next, reg =>
    let step := reg.leave pid
    match step.answer with
    | .settled removed =>
      ((next (.settled removed)).run host step.registry).after step.log [] step.woken
    | .timedOut =>
      let requested := .exitRequested pid (others reg pid)
      if limit.any host.elapses then
        ((next .timedOut).run host reg).after [requested, .exitTimedOut pid] [] false
      else { progress := .waiting pid next, registry := reg, log := [requested] }
  | .note notice next, reg => (next.run host reg).after [notice] [] false
  | .probe pid next, reg => (next (host.isRunning pid)).run host reg
  | .kill pid next, reg =>
    let result := host.terminate pid
    ((next result).run host reg).after [] (if result.isOk then [pid] else []) false

end Script

end Containment
