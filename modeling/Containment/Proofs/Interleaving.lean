import Containment.Proofs.Wakeups
import Mathlib.Data.List.Infix

/-!
# Scripts that take turns

Several scripts work on one registry. Each of them goes one step when it has its turn, and calls are
made by others in between (`Concurrent.run`). A script that has all turns to itself does what it
does when it is run alone (`run_alone`). What each of certain calls keeps, every run keeps in which
no other calls are made (`run_keeps`).
-/

namespace Containment

variable {α β : Type} {host : Host} {reg : Registry} {allowed : Call → Prop}

/-! ## One step of a script -/

namespace Script

/-- One step, and what is left of the script. Who waits to leave makes one attempt, and gives up
when that fails and the time is over. -/
def step (host : Host) (expired : Bool) : Script α → Registry → Registry × Script α
  | .done answer, reg => (reg, .done answer)
  | .call c next, reg =>
    let made := reg.exec host.allocates c
    (made.registry, next made.answer)
  | .await pid limit next, reg =>
    let attempt := reg.leave pid
    let rest :=
      match attempt.answer with
      | .settled removed => next (.settled removed)
      | .timedOut => if limit.isSome && expired then next .timedOut else .await pid limit next
    (attempt.registry, rest)
  | .note _ next, reg => (reg, next)
  | .probe pid next, reg => (reg, next (host.isRunning pid))
  | .kill pid next, reg => (reg, next (host.terminate pid))

/-- Whatever it is answered, the script makes no other calls than these. -/
def Only (allowed : Call → Prop) : Script α → Prop
  | .done _ => True
  | .call c next => allowed c ∧ ∀ answer, (next answer).Only allowed
  | .await pid _ next => allowed (.leave pid) ∧ ∀ departure, (next departure).Only allowed
  | .note _ next => next.Only allowed
  | .probe _ next => ∀ running, (next running).Only allowed
  | .kill _ next => ∀ result, (next result).Only allowed

namespace Only

variable {script : Script α} {k : α → Script β} {allowed' : Call → Prop} {call : Call} {pid : Pid}
variable {limit : Option UInt64} {notice : Notice}

theorem pure {answer : α} : (Pure.pure answer : Script α).Only allowed := trivial

theorem ask (h : allowed call) : (Script.ask call).Only allowed := ⟨h, fun _ => trivial⟩

theorem wait (h : allowed (.leave pid)) : (Script.wait pid limit).Only allowed :=
  ⟨h, fun _ => trivial⟩

theorem say : (Script.say notice).Only allowed := trivial

theorem terminate : (Script.terminate pid).Only allowed := fun _ => trivial

theorem bind (h : script.Only allowed) (hk : ∀ answer, (k answer).Only allowed) :
    (script >>= k).Only allowed := by
  show (script.bind k).Only allowed
  induction script with
  | done answer => exact hk answer
  | call c next ih => exact ⟨h.1, fun answer => ih answer (h.2 answer)⟩
  | await pid limit next ih => exact ⟨h.1, fun departure => ih departure (h.2 departure)⟩
  | note notice next ih => exact ih h
  | probe pid next ih => exact fun running => ih running (h running)
  | kill pid next ih => exact fun result => ih result (h result)

theorem mono (h : script.Only allowed) (himp : ∀ call, allowed call → allowed' call) :
    script.Only allowed' := by
  induction script with
  | done => trivial
  | call c next ih => exact ⟨himp c h.1, fun answer => ih answer (h.2 answer)⟩
  | await pid limit next ih => exact ⟨himp _ h.1, fun departure => ih departure (h.2 departure)⟩
  | note notice next ih => exact ih h
  | probe pid next ih => exact fun running => ih running (h running)
  | kill pid next ih => exact fun result => ih result (h result)

theorem any (script : Script α) : script.Only fun _ => True := by
  induction script with
  | done => trivial
  | call c next ih => exact ⟨trivial, ih⟩
  | await pid limit next ih => exact ⟨trivial, ih⟩
  | note notice next ih => exact ih
  | probe pid next ih => exact ih
  | kill pid next ih => exact ih

theorem step (host : Host) (h : script.Only allowed) (expired : Bool) (reg : Registry) :
    (script.step host expired reg).2.Only allowed ∧
      ((script.step host expired reg).1 = reg ∨
        ∃ call, allowed call ∧
          (script.step host expired reg).1 = (reg.exec host.allocates call).registry) := by
  cases script with
  | done answer => exact ⟨trivial, .inl rfl⟩
  | call c next => exact ⟨h.2 _, .inr ⟨c, h.1, rfl⟩⟩
  | await pid limit next =>
    refine ⟨?_, .inr ⟨.leave pid, h.1, rfl⟩⟩
    simp only [Script.step]
    split
    · exact h.2 _
    · split
      · exact h.2 _
      · exact h
  | note notice next => exact ⟨h, .inl rfl⟩
  | probe pid next => exact ⟨h _, .inl rfl⟩
  | kill pid next => exact ⟨h _, .inl rfl⟩

end Only

end Script

/-! ## Turns -/

structure Concurrent (α : Type) where
  registry : Registry
  /-- What is left of the scripts, in the order in which they were started. -/
  scripts : List (Script α) := []

inductive Turn (α : Type) where
  | call (call : Call)
  | start (script : Script α)
  | resume (index : Nat) (expired : Bool)

namespace Concurrent

variable {c : Concurrent α} {t : Turn α} {turns : List (Turn α)} {script : Script α}
variable {answer : α} {i : Nat} {expired : Bool}

def turn (host : Host) (c : Concurrent α) : Turn α → Concurrent α
  | .call call => { c with registry := (c.registry.exec host.allocates call).registry }
  | .start script => { c with scripts := c.scripts ++ [script] }
  | .resume index expired =>
    match c.scripts[index]? with
    | none => c
    | some script =>
      let (registry, rest) := script.step host expired c.registry
      { registry, scripts := c.scripts.set index rest }

def run (host : Host) (c : Concurrent α) (turns : List (Turn α)) : Concurrent α :=
  turns.foldl (turn host) c

theorem run_cons : c.run host (t :: turns) = (c.turn host t).run host turns := rfl

theorem turn_resume (hi : c.scripts[i]? = some script) :
    c.turn host (.resume i expired) =
      { registry := (script.step host expired c.registry).1
        scripts := c.scripts.set i (script.step host expired c.registry).2 } := by
  simp only [turn, hi]

/-! ## A script alone -/

/-- This comes of it when script `i` has all turns to itself. -/
def RunsTo (host : Host) (i : Nat) (c after : Concurrent α) : Prop :=
  ∃ turns, (∀ t ∈ turns, ∃ expired, t = .resume i expired) ∧ c.run host turns = after

theorem RunsTo.step {mid last : Registry} {rest : Script α} (expired : Bool)
    (hi : c.scripts[i]? = some script)
    (hstep : script.step host expired c.registry = (mid, rest))
    (hlater : (c.scripts.set i rest)[i]? = some rest →
      RunsTo host i ⟨mid, c.scripts.set i rest⟩
        ⟨last, (c.scripts.set i rest).set i (.done answer)⟩) :
    RunsTo host i c ⟨last, c.scripts.set i (.done answer)⟩ := by
  obtain ⟨hlt, -⟩ := List.getElem?_eq_some_iff.1 hi
  obtain ⟨turns, honly, hrun⟩ := hlater (List.getElem?_set_self hlt)
  refine ⟨.resume i expired :: turns, List.forall_mem_cons.2 ⟨⟨expired, rfl⟩, honly⟩, ?_⟩
  rw [run_cons, turn_resume hi, hstep, hrun, List.set_set]

theorem run_alone (hi : c.scripts[i]? = some script)
    (h : (script.run host c.registry).progress = .finished answer) :
    RunsTo host i c ⟨(script.run host c.registry).registry, c.scripts.set i (.done answer)⟩ := by
  induction script generalizing c with
  | done a =>
    cases h
    obtain ⟨hlt, hat⟩ := List.getElem?_eq_some_iff.1 hi
    have hsame : c.scripts.set i (.done answer) = c.scripts := by
      rw [← hat, List.set_getElem_self]
    refine ⟨[], by simp, ?_⟩
    rw [hsame]
    rfl
  | call call next ih => exact .step false hi rfl fun hi' => ih _ hi' h
  | await pid limit next ih =>
    cases hb : c.registry.isBusyRoot pid with
    | false =>
      simp only [Script.run, Registry.leave_idle hb, Script.Run.progress_after,
        Script.Run.registry_after] at h ⊢
      refine .step false hi ?_ fun hi' => ih _ hi' h
      rw [Script.step, Registry.leave_idle hb]
    | true =>
      -- a script that has come to its end has run out of time here
      cases hl : limit.any host.elapses with
      | false => simp [Script.run, Registry.leave_busy hb, hl] at h
      | true =>
        simp only [Script.run, Registry.leave_busy hb, hl, if_true, Script.Run.progress_after,
          Script.Run.registry_after] at h ⊢
        refine .step true hi ?_ fun hi' => ih _ hi' h
        have hsome : limit.isSome = true := by
          cases limit with
          | none => cases hl
          | some _ => rfl
        simp [Script.step, Registry.leave_busy hb, hsome]
  | note notice next ih => exact .step false hi rfl fun hi' => ih hi' h
  | probe pid next ih => exact .step false hi rfl fun hi' => ih _ hi' h
  | kill pid next ih => exact .step false hi rfl fun hi' => ih _ hi' h

end Concurrent

/-! ## What all turns keep -/

/-- No turn of this kind brings other calls than these into the run. -/
def Turn.Only (allowed : Call → Prop) : Turn α → Prop
  | .call c => allowed c
  | .start script => script.Only allowed
  | .resume .. => True

namespace Concurrent

variable {c : Concurrent α} {t : Turn α} {turns : List (Turn α)}

theorem turn_only (host : Host) (hc : ∀ script ∈ c.scripts, script.Only allowed)
    (ht : t.Only allowed) :
    (∀ script ∈ (c.turn host t).scripts, script.Only allowed) ∧
      ((c.turn host t).registry = c.registry ∨
        ∃ call, allowed call ∧
          (c.turn host t).registry = (c.registry.exec host.allocates call).registry) := by
  cases t with
  | call call => exact ⟨hc, .inr ⟨call, ht, rfl⟩⟩
  | start script =>
    exact ⟨List.forall_mem_append.2 ⟨hc, List.forall_mem_singleton.2 ht⟩, .inl rfl⟩
  | resume index expired =>
    cases hi : c.scripts[index]? with
    | none =>
      have hsame : c.turn host (.resume index expired) = c := by simp only [turn, hi]
      rw [hsame]
      exact ⟨hc, .inl rfl⟩
    | some script =>
      have hstep := (hc script (List.mem_of_getElem? hi)).step host expired c.registry
      rw [turn_resume hi]
      refine ⟨fun other hother => ?_, hstep.2⟩
      rcases List.mem_or_eq_of_mem_set hother with hmem | heq
      · exact hc other hmem
      · rw [heq]
        exact hstep.1

/-- A property of the registry that each of these calls keeps is kept by the whole run. What a call
may need to know of the table that it leaves is `later`. -/
theorem run_keeps (kept later : Registry → Prop)
    (hstep : ∀ {reg : Registry} {call : Call}, allowed call → kept reg →
      later (reg.exec host.allocates call).registry → kept (reg.exec host.allocates call).registry)
    (hc : ∀ script ∈ c.scripts, script.Only allowed) (hturns : ∀ t ∈ turns, t.Only allowed)
    (hlater : ∀ first, first <+: turns → later (c.run host first).registry)
    (hkept : kept c.registry) : kept (c.run host turns).registry := by
  induction turns generalizing c with
  | nil => exact hkept
  | cons t turns ih =>
    obtain ⟨hnow, hrest⟩ := List.forall_mem_cons.1 hturns
    obtain ⟨hscripts, hregistry⟩ := turn_only host hc hnow
    have hnext : kept (c.turn host t).registry := by
      have hafter : later (c.turn host t).registry := hlater [t] (List.prefix_append [t] turns)
      rcases hregistry with hsame | ⟨call, hallowed, hcall⟩
      · rwa [hsame]
      · rw [hcall] at hafter ⊢
        exact hstep hallowed hkept hafter
    apply ih hscripts hrest _ hnext
    intro first hfirst
    exact hlater (t :: first) (List.cons_prefix_cons.2 ⟨rfl, hfirst⟩)

theorem reachable_run {limits : Limits} (turns : List (Turn α))
    (h : Registry.Reachable host.allocates limits c.registry) :
    Registry.Reachable host.allocates limits (c.run host turns).registry := by
  have hturns : ∀ t ∈ turns, t.Only fun _ => True := by
    intro t ht
    cases t with
    | start script => exact Script.Only.any script
    | _ => trivial
  exact run_keeps (Registry.Reachable host.allocates limits) (fun _ => True)
    (fun {_ call} _ hreg _ => hreg.call call) (fun script _ => .any script) hturns
    (fun _ _ => trivial) h

end Concurrent

end Containment
