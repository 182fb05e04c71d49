import Containment.Machine
import Containment.Proofs.Interleaving
import Containment.Proofs.Losses

/-!
# What an exit leaves

An exit that is over has taken its process out, whether it went at once, after a while or because
its time was up, and nothing else is different (`exit_forgets`). It is over at some time, unless it
is the root of a busy family and has no limit. `Exiting` has a case for each stage in which the
script can be when nothing else happens meanwhile.
-/

namespace Containment

variable {α : Type} {allocates : Allocator} {limits : Limits} {host : Host}
variable {settings : WatchSettings} {reg now : Registry} {pid : Pid} {script : Script Reaction}
variable {departure : Departure} {reaction : Reaction}

namespace Concurrent

theorem RunsTo.keeps {before after : Concurrent α} {script : Script α} {i : Nat}
    (kept : Registry → Script α → Prop)
    (hstep : ∀ {reg : Registry} {script : Script α} (expired : Bool), kept reg script →
      kept (script.step host expired reg).1 (script.step host expired reg).2)
    (hi : before.scripts[i]? = some script) (hkept : kept before.registry script)
    (hrun : RunsTo host i before after) :
    ∃ rest, after.scripts[i]? = some rest ∧ kept after.registry rest := by
  obtain ⟨turns, honly, rfl⟩ := hrun
  induction turns generalizing before script with
  | nil => exact ⟨script, hi, hkept⟩
  | cons t turns ih =>
    obtain ⟨⟨expired, rfl⟩, hrest⟩ := List.forall_mem_cons.1 honly
    obtain ⟨hlt, -⟩ := List.getElem?_eq_some_iff.1 hi
    rw [run_cons, turn_resume hi]
    exact ih (List.getElem?_set_self hlt) (hstep expired hkept) hrest

end Concurrent

/-! ## The stages of an exit -/

namespace ProcessEvent

open Script

def forget (pid : Pid) : Script Reaction :=
  .call (.dismiss pid) fun _ => .done (.exited .timedOut)

/-- How far the exit of `pid` has got, and the registry then, when it began with `reg`. -/
inductive Exiting (settings : WatchSettings) (reg : Registry) (pid : Pid) :
    Registry → Script Reaction → Prop
  | waiting : Exiting settings reg pid reg ((ProcessEvent.exited pid).handle settings)
  | settled (idle : reg.isBusyRoot pid = false) : Exiting settings reg pid
    (reg.dismiss pid).registry (.done (.exited (.settled (reg.dismiss pid).answer)))
  | overdue (busy : reg.isBusyRoot pid = true) (limited : settings.exitLimit.isSome = true) :
    Exiting settings reg pid reg (.note (.exitedRootForgotten pid) (forget pid))
  | forgetting (busy : reg.isBusyRoot pid = true) (limited : settings.exitLimit.isSome = true) :
    Exiting settings reg pid reg (forget pid)
  | forgotten (busy : reg.isBusyRoot pid = true) (limited : settings.exitLimit.isSome = true) :
    Exiting settings reg pid (reg.dismiss pid).registry (.done (.exited .timedOut))

theorem step_idle (host : Host) (settings : WatchSettings) (expired : Bool)
    (hb : reg.isBusyRoot pid = false) :
    ((ProcessEvent.exited pid).handle settings).step host expired reg =
      ((reg.dismiss pid).registry, .done (.exited (.settled (reg.dismiss pid).answer))) := by
  show (Script.await pid settings.exitLimit _).step host expired reg = _
  simp only [Script.step, Registry.leave_idle hb]
  rfl

theorem step_busy (host : Host) (settings : WatchSettings) (expired : Bool)
    (hb : reg.isBusyRoot pid = true) :
    ((ProcessEvent.exited pid).handle settings).step host expired reg =
      (reg, if settings.exitLimit.isSome && expired then
        .note (.exitedRootForgotten pid) (forget pid)
      else (ProcessEvent.exited pid).handle settings) := by
  show (Script.await pid settings.exitLimit _).step host expired reg = _
  simp only [Script.step, Registry.leave_busy hb]
  rfl

theorem Exiting.step (expired : Bool) (h : Exiting settings reg pid now script) :
    Exiting settings reg pid (script.step host expired now).1 (script.step host expired now).2 := by
  cases h with
  | waiting =>
    cases hb : reg.isBusyRoot pid with
    | false =>
      rw [step_idle host settings expired hb]
      exact .settled hb
    | true =>
      rw [step_busy host settings expired hb]
      split
      · rename_i hover
        exact .overdue hb (Bool.and_eq_true_iff.1 hover).1
      · exact .waiting
  | settled idle => exact .settled idle
  | overdue busy limited => exact .forgetting busy limited
  | forgetting busy limited => exact .forgotten busy limited
  | forgotten busy limited => exact .forgotten busy limited

end ProcessEvent

/-! ## What is left of the family -/

/-- `pid` was the root of a live family with others in it, which now has just those others and its
files, and is without its root. -/
def LeavesOthers (before : Registry) (pid : Pid) (after : Registry) : Prop :=
  ∃ f ∈ before.families, f.root = pid ∧ f.isLive = true ∧
    (∃ other ∈ f.members.items, other ≠ pid) ∧
    ∃ g ∈ after.families, g.root = pid ∧ g.origin = f.origin ∧ g.policy = f.policy ∧
      g.files = f.files ∧ g.isLive = false ∧
      ∀ x, x ∈ g.members.items ↔ x ≠ pid ∧ x ∈ f.members.items

/-- What the exit of `pid` has done when it is over. -/
structure Forgotten (before : Registry) (pid : Pid) (departure : Departure) (after : Registry) :
    Prop where
  effect : after = (before.dismiss pid).registry
  out : ∀ f ∈ after.families, pid ∉ f.members.items
  others : ∀ other, other ≠ pid → after.rootOf other = before.rootOf other
  settled : ∀ removed, departure = .settled removed → (removed = true ↔ before.tracks pid = true)
  timedOut : departure = .timedOut → LeavesOthers before pid after

theorem leavesOthers (h : Registry.Reachable allocates limits reg)
    (hb : reg.isBusyRoot pid = true) : LeavesOthers reg pid (reg.dismiss pid).registry := by
  have hs := h.sound
  obtain ⟨⟨f, hf, hroot, hp⟩, other, hne, f', hf', hroot', ho⟩ := hs.isBusyRoot_iff.1 hb
  obtain rfl : f = f' := hs.eq_of_not_apart hf hf' fun ha => ha.roots (hroot.trans hroot'.symm)
  have hmembers (x : Pid) : x ∈ (f.dismiss pid).members.items ↔ x ≠ pid ∧ x ∈ f.members.items :=
    (hs.sound f hf).mem_dismiss
  have hkept : (f.dismiss pid).isSpent = false := by
    rw [← Bool.not_eq_true, Family.isSpent_dismiss hp]
    rintro ⟨hlast, -⟩
    rw [hlast] at ho
    exact hne (List.mem_singleton.1 ho)
  have hrootless : (f.dismiss pid).isLive = false := by
    rw [← Bool.not_eq_true, Family.isLive_iff, hmembers]
    exact fun hin => hin.1 hroot
  have hstays : f.dismiss pid ∈ (reg.dismiss pid).registry.families :=
    (Registry.mem_remove h (.member pid)).2 ⟨f, hf, hkept, rfl⟩
  have hlive : f.isLive = true := by
    rw [Family.isLive_iff, hroot]
    exact hp
  exact ⟨f, hf, hroot, hlive, ⟨other, ho, hne⟩, f.dismiss pid, hstays, hroot, rfl, rfl, rfl,
    hrootless, hmembers⟩

theorem forgotten_dismiss (h : Registry.Reachable allocates limits reg)
    (hsettled : ∀ removed, departure = .settled removed → removed = (reg.dismiss pid).answer)
    (hbusy : departure = .timedOut → reg.isBusyRoot pid = true) :
    Forgotten reg pid departure (reg.dismiss pid).registry := by
  have hs := h.sound
  constructor
  case effect => rfl
  case out =>
    intro f hf hp
    exact ((Registry.hasMember_dismiss hs).1 ⟨f, hf, rfl, hp⟩).1 rfl
  case others => exact fun other hne => Registry.rootOf_dismiss hs hne
  case settled =>
    intro removed hd
    rw [hsettled removed hd, Registry.answer_dismiss hs]
  case timedOut => exact fun hd => leavesOthers h (hbusy hd)

theorem ProcessEvent.Exiting.over (h : Registry.Reachable allocates limits reg)
    (hexiting : Exiting settings reg pid now (.done reaction)) :
    ∃ departure, reaction = .exited departure ∧ Forgotten reg pid departure now := by
  cases hexiting with
  | settled idle => exact ⟨_, rfl, forgotten_dismiss h (by rintro _ ⟨⟩; rfl) nofun⟩
  | forgotten busy limited => exact ⟨_, rfl, forgotten_dismiss h nofun fun _ => busy⟩

/-! ## Exits that are over -/

section
open Concurrent
variable {i : Nat} {before after : Concurrent Reaction}
  (hi : before.scripts[i]? = some ((ProcessEvent.exited pid).handle settings))

include hi in
theorem exiting_of_runsTo (hrun : RunsTo host i before after)
    (hdone : after.scripts[i]? = some (.done reaction)) :
    ProcessEvent.Exiting settings before.registry pid after.registry (.done reaction) := by
  obtain ⟨rest, hrest, hexiting⟩ := hrun.keeps (ProcessEvent.Exiting settings before.registry pid)
    (fun expired hexiting => hexiting.step expired) hi .waiting
  rw [hdone] at hrest
  cases hrest
  exact hexiting

include hi in
theorem exit_ends :
    (∃ after reaction, RunsTo host i before after ∧ after.scripts[i]? = some (.done reaction)) ↔
      before.registry.isBusyRoot pid = false ∨ settings.exitLimit.isSome = true := by
  obtain ⟨hlt, -⟩ := List.getElem?_eq_some_iff.1 hi
  constructor
  · rintro ⟨after, reaction, hrun, hdone⟩
    have hexiting := exiting_of_runsTo hi hrun hdone
    generalize after.registry = now at hexiting
    cases hexiting with
    | settled idle => exact .inl idle
    | forgotten busy limited => exact .inr limited
  · intro hends
    cases hb : before.registry.isBusyRoot pid with
    | false =>
      have hstep := ProcessEvent.step_idle host settings true hb
      exact ⟨_, _, .step true hi hstep fun hi' => run_alone hi' rfl, List.getElem?_set_self hlt⟩
    | true =>
      have hlimited : settings.exitLimit.isSome = true := by simpa [hb] using hends
      have hstep := ProcessEvent.step_busy host settings true hb
      rw [if_pos (by simp [hlimited])] at hstep
      exact ⟨_, _, .step true hi hstep fun hi' => run_alone hi' rfl, List.getElem?_set_self hlt⟩

include hi in
/-- With nothing else in between, an exit is over at some time, unless `pid` is the root of a busy
family and there is no limit. When it is over, `pid` is forgotten and nothing else. -/
theorem exit_forgets (h : Registry.Reachable allocates limits before.registry) :
    ((∃ after reaction, RunsTo host i before after ∧ after.scripts[i]? = some (.done reaction)) ↔
      before.registry.isBusyRoot pid = false ∨ settings.exitLimit.isSome = true) ∧
    ∀ after reaction, RunsTo host i before after → after.scripts[i]? = some (.done reaction) →
      ∃ departure, reaction = .exited departure ∧
        Forgotten before.registry pid departure after.registry :=
  ⟨exit_ends hi, fun _ _ hrun hdone => (exiting_of_runsTo hi hrun hdone).over h⟩

end

theorem exit_forgets_overdue :
    let host := ({} : Machine).host
    let reg := (Registry.empty {}).execAll host.allocates
      [.found ⟨10⟩ .invalid .noRestriction, .claim ⟨7⟩ ⟨10⟩, .enroll ⟨11⟩ ⟨10⟩]
    let script := (ProcessEvent.exited ⟨10⟩).handle { exitLimit := some 50 }
    let turns := [.resume 0 false, .resume 0 true, .resume 0 false, .resume 0 false]
    let after := Concurrent.run host ⟨reg, [script]⟩ turns
    Registry.Reachable host.allocates {} reg ∧
      after.scripts[0]? = some (.done (.exited .timedOut)) ∧
      LeavesOthers reg ⟨10⟩ after.registry ∧ after.registry.rootOf ⟨11⟩ = ⟨10⟩ ∧
      after.registry.files ⟨10⟩ = [⟨7⟩] := by
  intro host reg script turns after
  have h : Registry.Reachable host.allocates {} reg := .execAll _ .empty
  have hrun : Concurrent.RunsTo host 0 ⟨reg, [script]⟩ after := by
    refine ⟨turns, ?_, rfl⟩
    simp [turns]
  have hdone : after.scripts[0]? = some (.done (.exited .timedOut)) := by rfl
  have hi : (⟨reg, [script]⟩ : Concurrent Reaction).scripts[0]? = some script := rfl
  obtain ⟨departure, heq, hforgotten⟩ := (exit_forgets hi h).2 after _ hrun hdone
  cases heq
  exact ⟨h, hdone, hforgotten.timedOut rfl,
    (hforgotten.others ⟨11⟩ (by decide)).trans (by decide), by decide⟩

end Containment
