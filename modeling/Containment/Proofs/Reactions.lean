import Containment.Machine
import Containment.Proofs.Watching

/-!
# Reactions that tell what was done

The reaction to an event that is no exit tells all that was done (`reaction_reports`). Who is
attached is in that live family and is the only difference there is, and nobody is terminated but
the process of the event.
-/

namespace Containment

variable {allocates : Allocator} {limits : Limits} {host : Host} {settings : WatchSettings}
variable {reg : Registry} {pid : Pid} {step : Step (Except Refusal Unit)} {blocksDead : Bool}

/-- `pid` is in the live family rooted at `root`, and no more than that sets `after` apart. -/
structure Attached (before : Registry) (pid root : Pid) (after : Registry) : Prop where
  valid : root.isValid = true
  live : ∃ g ∈ after.families, g.root = root ∧ g.isLive = true ∧ pid ∈ g.members.items
  only : after = before ∨ ∃ i f g, before.families[i]? = some f ∧ f.root = root ∧
    f.Admits pid g ∧ after = before.put i g

theorem Registry.Attempt.attached (h : SoundTable allocates reg.families)
    (ha : Attempt allocates reg pid step) (ht : Taken step.answer) :
    Attached reg pid (step.registry.rootOf pid) step.registry := by
  have hs := (ha.intake.grows h).sound
  have place {g : Family} (hg : g ∈ step.registry.families) (hp : pid ∈ g.members.items) :
      step.registry.rootOf pid = g.root ∧ g.root.isValid = true :=
    ⟨hs.rootOf ⟨g, hg, rfl, hp⟩, (hs.sound g hg).root⟩
  cases ha with
  | unnamed _ why answer _ =>
    rw [answer, taken_error_iff] at ht
    subst ht
    rcases why with h | h <;> cases h
  | named slot _ found admission =>
    cases admission with
    | elsewhere _ _ _ answer _ => rw [answer, taken_error_iff] at ht; cases ht
    | dead _ _ _ answer _ => rw [answer, taken_error_iff] at ht; cases ht
    | full _ _ answer _ => rw [answer, taken_error_iff] at ht; cases ht
    | known held live _ same =>
      have hg : slot.family ∈ step.registry.families := same ▸ List.mem_of_getElem? found
      obtain ⟨hroot, hvalid⟩ := place hg held
      exact ⟨hroot ▸ hvalid, ⟨_, hg, hroot.symm, live, held⟩, .inl same⟩
    | taken joined _ enrolled _ put =>
      have hf := List.mem_of_getElem? found
      have admits := Family.admits_of_enroll (h.sound _ hf) enrolled
      have hg : joined ∈ step.registry.families := by
        rw [put]
        exact List.mem_of_getElem? (List.getElem?_set_self (List.getElem?_eq_some_iff.1 found).1)
      have hp : pid ∈ joined.members.items := (admits.members pid).2 (.inl rfl)
      have hlive := admits.isLive (Family.enroll_eq_ok enrolled).1
      obtain ⟨hroot, hvalid⟩ := place hg hp
      refine ⟨hroot ▸ hvalid, ⟨_, hg, hroot.symm, hlive, hp⟩, .inr ?_⟩
      exact ⟨slot.index, slot.family, joined, found, admits.root.symm.trans hroot.symm, admits, put⟩
  | unstored answer _ => rw [answer, taken_error_iff] at ht; cases ht

/-! ## Reactions -/

/-- What a reaction tells of the registry before and after, and of those who were terminated. -/
structure Reported (before : Registry) (pid : Pid) (reaction : Reaction) (after : Registry)
    (killed : List Pid) : Prop where
  attached : ∀ root, reaction = .attached root → Attached before pid root after
  unchanged : (∀ root, reaction ≠ .attached root) → after = before
  terminated : ∀ p cause, reaction = .terminated p cause → p = pid ∧ killed = [pid]
  spared : (∀ p cause, reaction ≠ .terminated p cause) → killed = []
  exhausted : ∀ p, reaction = .terminated p .capacityExhausted →
    ∀ f ∈ before.families, p ∉ f.members.items

namespace ProcessEvent

variable {reaction : Reaction} {after : Registry} {killed : List Pid}

theorem Reacts.reported (h : SoundTable allocates reg.families)
    (ha : Registry.Attempt allocates reg pid step)
    (hreacts : Reacts host settings step.registry pid blocksDead step.answer reaction killed) :
    Reported reg pid reaction step.registry killed := by
  generalize hanswer : step.answer = answer at hreacts
  cases hreacts with
  | attached taken =>
    have hattached := ha.attached h (hanswer ▸ taken)
    constructor
    · rintro _ ⟨⟩
      exact hattached
    · exact fun hno => absurd rfl (hno _)
    · exact nofun
    · exact fun _ => rfl
    · exact nofun
  | ignored why =>
    exact ⟨nofun, fun _ => ha.intake.same_of_error hanswer, nofun, fun _ => rfl, nofun⟩
  | rejected spared =>
    exact ⟨nofun, fun _ => ha.intake.same_of_error hanswer, nofun, fun _ => rfl, nofun⟩
  | @terminated cause deserved gone =>
    constructor
    · exact nofun
    · exact fun _ => ha.intake.same_of_error hanswer
    · rintro _ _ ⟨⟩
      exact ⟨rfl, rfl⟩
    · exact fun hno => absurd rfl (hno pid cause)
    · rintro _ ⟨⟩ f hf hp
      exact (ha.exhausted hanswer).2 f.root ⟨f, hf, rfl, hp⟩

theorem Concludes.reported (h : SoundTable allocates reg.families)
    (hc : Concludes allocates host settings reg pid reaction after killed) :
    Reported reg pid reaction after killed := by
  cases hc with
  | ignored => exact ⟨nofun, fun _ => rfl, nofun, fun _ => rfl, nofun⟩
  | reacted blocksDead attempt reacts => exact reacts.reported h attempt

end ProcessEvent

/-- After an event that is no exit, the registry and those who were terminated are as the reaction
says, whatever storage can be had at the time. -/
theorem reaction_reports (h : Registry.Reachable allocates limits reg) (host : Host)
    (settings : WatchSettings) {event : ProcessEvent} (he : ∀ pid, event ≠ .exited pid) :
    let run := (event.handle settings).run host reg
    ∃ reaction, run.progress = .finished reaction ∧
      Reported reg event.pid reaction run.registry run.killed := by
  intro run
  obtain ⟨reaction, after, killed, hc, hy⟩ :=
    ProcessEvent.handle_concludes host settings h.sound he
  refine ⟨reaction, hy.progress, ?_⟩
  rw [hy.registry, hy.killed]
  exact hc.reported h.sound

theorem reaction_reports_exhausted :
    let host := ({} : Machine).host
    let reg := (Registry.empty { maxMembers := 1 }).execAll host.allocates
      [.found ⟨10⟩ .invalid .noRestriction, .found ⟨20⟩ .invalid .noRestriction]
    let event := ProcessEvent.created ⟨12⟩ ⟨10⟩ ⟨20⟩
    let run := (event.handle {}).run host reg
    Registry.Reachable host.allocates { maxMembers := 1 } reg ∧ (∀ pid, event ≠ .exited pid) ∧
      run.progress = .finished (.terminated ⟨12⟩ .capacityExhausted) ∧ run.killed = [⟨12⟩] ∧
      run.registry = reg ∧ ∀ f ∈ reg.families, ⟨12⟩ ∉ f.members.items := by
  intro host reg event run
  have h : Registry.Reachable host.allocates { maxMembers := 1 } reg := .execAll _ .empty
  have he : ∀ pid, event ≠ .exited pid := nofun
  have hend : run.progress = .finished (.terminated ⟨12⟩ .capacityExhausted) := rfl
  obtain ⟨reaction, hp, hreported⟩ := reaction_reports h host {} he
  cases hp.symm.trans hend
  exact ⟨h, he, hend, (hreported.terminated _ _ rfl).2, hreported.unchanged nofun,
    hreported.exhausted _ rfl⟩

end Containment
