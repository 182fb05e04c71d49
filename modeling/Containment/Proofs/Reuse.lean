import Containment.Feed
import Containment.Proofs.Waiting
import Containment.Proofs.Watching

/-!
# Exits that are late

Between two events a session is settled: whoever waits there is a busy root, and each event leaves
it so. An exit that waits names its process by the pid only. When the pid is in use again, the exit
takes out the process that uses it now, and exactly then a process that was let in is lost without
an exit of its own (`attached_stays`).
-/

namespace Containment.Session

variable {allocates : Allocator} {limits : Limits} {host : Host} {settings : WatchSettings}
variable {s : Session} {event : ProcessEvent} {events : List ProcessEvent} {pid : Pid}

structure Settled (allocates : Allocator) (s : Session) : Prop where
  sound : SoundTable allocates s.registry.families
  busy : ∀ pid ∈ s.waiting, s.registry.isBusyRoot pid = true

theorem settled_of_reachable {reg : Registry} (h : Registry.Reachable allocates limits reg) :
    Settled allocates { registry := reg } :=
  ⟨h.sound, by simp⟩

theorem Settled.tracks (h : s.Settled allocates) (hw : pid ∈ s.waiting) :
    s.registry.tracks pid = true :=
  h.sound.tracks_iff.2 ⟨pid, (h.sound.isBusyRoot_iff.1 (h.busy pid hw)).1⟩

/-! ## Before those who wait try again -/

/-- What an event has done when the next round of attempts begins. -/
structure Handled (allocates : Allocator) (s : Session) (event : ProcessEvent) (after : Session) :
    Prop where
  sound : SoundTable allocates after.registry.families
  keeps : ∀ root x, event ≠ .exited x → HasMember s.registry.families root x →
    HasMember after.registry.families root x
  waiting : after.waiting = s.waiting ∨
    ∃ pid, event = .exited pid ∧ after.waiting = s.waiting ++ [pid]
  alone : ∀ pid ∈ after.waiting, after.registry.Alone pid

theorem perform_finished {script : Script Reaction} {reaction : Reaction}
    (h : (script.run host s.registry).progress = .finished reaction) :
    (s.perform host script).answer = some reaction ∧ (s.perform host script).session =
      (release { registry := (script.run host s.registry).registry
                 waiting := s.waiting }).session := by
  simp [perform, h]

theorem perform_waiting {script : Script Reaction} {next : Departure → Script Reaction}
    (h : (script.run host s.registry).progress = .waiting pid next) :
    (s.perform host script).answer = none ∧ (s.perform host script).session =
      (release { registry := (script.run host s.registry).registry
                 waiting := s.waiting ++ [pid] }).session := by
  simp [perform, h]

theorem handled_inline (settings : WatchSettings) (hs : s.Settled host.allocates)
    (he : ∀ pid, event ≠ .exited pid) :
    ∃ after, Handled host.allocates s event after ∧
      (s.observe host settings event).session = after.release.session ∧
      ∀ root, (s.observe host settings event).answer = some (.attached root) →
        ∃ root, HasMember after.registry.families root event.pid := by
  obtain ⟨reaction, hend, hg, hp⟩ := ProcessEvent.handle_ends settings hs.sound he
  obtain ⟨hanswer, hsession⟩ := perform_finished hend
  refine ⟨{ registry := _, waiting := s.waiting },
    ⟨hg.sound, fun root x _ hm => hg.keeps root x hm, .inl rfl, ?_⟩, hsession, ?_⟩
  · intro pid hw root hm
    obtain ⟨hown, -⟩ := hs.sound.isBusyRoot_iff.1 (hs.busy pid hw)
    exact hg.sound.root_of_member hm (hg.keeps pid pid hown)
  · intro root ha
    rw [observe, hanswer] at ha
    cases ha
    exact hp root rfl

theorem handled_exited (settings : WatchSettings) (hs : s.Settled host.allocates) (pid : Pid) :
    ∃ after, Handled host.allocates s (.exited pid) after ∧
      (s.observe host settings (.exited pid)).session = after.release.session ∧
      (∀ root, (s.observe host settings (.exited pid)).answer ≠ some (.attached root)) ∧
      ∀ root x, HasMember after.registry.families root x →
        HasMember s.registry.families root x ∧ (s.registry.isBusyRoot pid = false → x ≠ pid) := by
  have halone : ∀ p ∈ s.waiting, s.registry.Alone p := fun p hp =>
    Registry.alone_of_busy hs.sound (hs.busy p hp)
  by_cases hend : s.registry.isBusyRoot pid = false ∨ settings.exitLimit.any host.elapses = true
  · -- the exit is over, and `pid` is out of its family whether or not it had to be forced
    obtain ⟨reaction, hend, hafter, hr⟩ := ProcessEvent.exited_ends hend
    obtain ⟨hanswer, hsession⟩ := perform_finished hend
    rw [hafter] at hsession
    refine ⟨{ registry := _, waiting := s.waiting },
      ⟨Registry.sound_dismiss hs.sound, ?_, .inl rfl, ?_⟩, hsession, ?_, ?_⟩
    · intro root x hx hm
      refine (Registry.hasMember_dismiss hs.sound).2 ⟨?_, hm⟩
      intro heq
      subst heq
      exact hx rfl
    · intro p hp root hm
      exact halone p hp root ((Registry.hasMember_dismiss hs.sound).1 hm).2
    · intro root ha
      rw [observe, hanswer] at ha
      cases ha
      exact hr root rfl
    · intro root x hm
      have := (Registry.hasMember_dismiss hs.sound).1 hm
      exact ⟨this.2, fun _ => this.1⟩
  · -- the exit waits behind those who wait already
    simp only [not_or, Bool.not_eq_false, Bool.not_eq_true] at hend
    obtain ⟨⟨next, hwait⟩, hafter⟩ := ProcessEvent.exited_waits hend.1 hend.2
    obtain ⟨hanswer, hsession⟩ := perform_waiting hwait
    rw [hafter] at hsession
    refine ⟨{ registry := s.registry, waiting := s.waiting ++ [pid] },
      ⟨hs.sound, fun _ _ _ hm => hm, .inr ⟨pid, rfl, rfl⟩, ?_⟩, hsession, ?_, ?_⟩
    · intro p hp
      rcases List.mem_append.1 hp with hp | hp
      · exact halone p hp
      · rw [List.mem_singleton.1 hp]
        exact Registry.alone_of_busy hs.sound hend.1
    · intro root ha
      rw [observe, hanswer] at ha
      cases ha
    · intro root x hm
      exact ⟨hm, fun hb => by rw [hend.1] at hb; cases hb⟩

theorem observe_handled (settings : WatchSettings) (hs : s.Settled host.allocates)
    (event : ProcessEvent) :
    ∃ after, Handled host.allocates s event after ∧
      (s.observe host settings event).session = after.release.session ∧
      ∀ root, (s.observe host settings event).answer = some (.attached root) →
        ∃ root, HasMember after.registry.families root event.pid := by
  by_cases he : ∃ pid, event = .exited pid
  · obtain ⟨pid, rfl⟩ := he
    obtain ⟨after, hh, hsession, hno, -⟩ := handled_exited settings hs pid
    exact ⟨after, hh, hsession, fun root ha => absurd ha (hno root)⟩
  · exact handled_inline settings hs (not_exists.1 he)

/-! ## One event -/

namespace Handled

variable {after : Session}

theorem round (h : Handled allocates s event after) :
    Releases.Round allocates { after with waiting := [] } after.waiting after.release.session :=
  Releases.round (r := { session := { after with waiting := [] } }) after.waiting h.sound h.alone

theorem mem_waiting_release (h : Handled allocates s event after) :
    pid ∈ after.release.session.waiting ↔
      pid ∈ after.waiting ∧ after.registry.isBusyRoot pid = true := by
  rw [h.round.waiting, List.nil_append, List.mem_filter]

theorem tracks_release (h : Handled allocates s event after) (hw : pid ∉ after.waiting)
    (hm : ∃ root, HasMember after.registry.families root pid) :
    after.release.session.registry.tracks pid = true := by
  obtain ⟨root, hm⟩ := hm
  refine h.round.sound.tracks_iff.2 ⟨root, (h.round.members root pid).2 ⟨hm, ?_⟩⟩
  exact fun hbad => absurd hbad hw

theorem waits (h : Handled allocates s event after) (hw : pid ∈ after.waiting) :
    pid ∈ s.waiting ∨ event = .exited pid := by
  rcases h.waiting with heq | ⟨p, rfl, heq⟩
  · rw [heq] at hw
    exact .inl hw
  · rw [heq] at hw
    rcases List.mem_append.1 hw with hw | hw
    · exact .inl hw
    · rw [List.mem_singleton.1 hw]
      exact .inr rfl

theorem waited (h : Handled allocates s event after) (hw : pid ∈ s.waiting) :
    pid ∈ after.waiting := by
  rcases h.waiting with heq | ⟨p, -, heq⟩
  · rw [heq]
    exact hw
  · rw [heq]
    exact List.mem_append_left _ hw

end Handled

theorem settled_observe (settings : WatchSettings) (event : ProcessEvent)
    (hs : s.Settled host.allocates) :
    (s.observe host settings event).session.Settled host.allocates := by
  obtain ⟨after, hh, hsession, -⟩ := observe_handled settings hs event
  rw [hsession]
  refine ⟨hh.round.sound, fun pid hw => ?_⟩
  rw [hh.round.busy]
  exact (hh.mem_waiting_release.1 hw).2

theorem not_waiting_observe (hs : s.Settled host.allocates) (hw : pid ∉ s.waiting)
    (he : event ≠ .exited pid) : pid ∉ (s.observe host settings event).session.waiting := by
  obtain ⟨after, hh, hsession, -⟩ := observe_handled settings hs event
  rw [hsession]
  intro hbad
  rcases hh.waits (hh.mem_waiting_release.1 hbad).1 with hbad | hbad
  · exact hw hbad
  · exact he hbad

theorem tracks_observe (hs : s.Settled host.allocates) (hw : pid ∉ s.waiting)
    (he : event ≠ .exited pid) (ht : s.registry.tracks pid = true) :
    (s.observe host settings event).session.registry.tracks pid = true := by
  obtain ⟨after, hh, hsession, -⟩ := observe_handled settings hs event
  obtain ⟨root, hm⟩ := hs.sound.tracks_iff.1 ht
  rw [hsession]
  refine hh.tracks_release (fun hbad => ?_) ⟨root, hh.keeps root pid he hm⟩
  rcases hh.waits hbad with hbad | hbad
  · exact hw hbad
  · exact he hbad

theorem tracks_attached {parent creator root : Pid} (hs : s.Settled host.allocates)
    (hw : pid ∉ s.waiting) (ha : (s.observe host settings (.created pid parent creator)).answer =
      some (.attached root)) :
    (s.observe host settings (.created pid parent creator)).session.registry.tracks pid = true := by
  obtain ⟨after, hh, hsession, hp⟩ :=
    observe_handled settings hs (.created pid parent creator)
  rw [hsession]
  refine hh.tracks_release (fun hbad => ?_) (hp root ha)
  rcases hh.waits hbad with hbad | hbad
  · exact hw hbad
  · cases hbad

theorem untracked_observe (hs : s.Settled host.allocates) (hw : pid ∈ s.waiting)
    (hgone : pid ∉ (s.observe host settings event).session.waiting) :
    ¬ (s.observe host settings event).session.registry.tracks pid = true := by
  obtain ⟨after, hh, hsession, -⟩ := observe_handled settings hs event
  rw [hsession] at hgone ⊢
  rw [hh.round.sound.tracks_iff]
  intro hex
  obtain ⟨root, hm⟩ := hex
  have hbusy := ((hh.round.members root pid).1 hm).2 (hh.waited hw)
  exact hgone (hh.mem_waiting_release.2 ⟨hh.waited hw, hbusy⟩)

/-! ## Lists of events -/

theorem not_waiting_feed (hs : s.Settled host.allocates) (hw : pid ∉ s.waiting)
    (he : ∀ event ∈ events, event ≠ .exited pid) :
    pid ∉ (s.feed host settings events).waiting := by
  induction events generalizing s with
  | nil => exact hw
  | cons event events ih =>
    obtain ⟨hnow, hlater⟩ := List.forall_mem_cons.1 he
    exact ih (settled_observe settings event hs) (not_waiting_observe hs hw hnow) hlater

theorem settled_feed (hs : s.Settled host.allocates) (events : List ProcessEvent) :
    (s.feed host settings events).Settled host.allocates := by
  induction events generalizing s with
  | nil => exact hs
  | cons event events ih => exact ih (settled_observe settings event hs)

theorem tracks_feed (hs : s.Settled host.allocates) (hw : pid ∉ s.waiting)
    (ht : s.registry.tracks pid = true) (he : ∀ event ∈ events, event ≠ .exited pid) :
    (s.feed host settings events).registry.tracks pid = true := by
  induction events generalizing s with
  | nil => exact ht
  | cons event events ih =>
    obtain ⟨hnow, hlater⟩ := List.forall_mem_cons.1 he
    exact ih (settled_observe settings event hs) (not_waiting_observe hs hw hnow)
      (tracks_observe hs hw hnow ht)
      hlater

/-- Whoever is in a family now stays there, unless its exit waits now and is done in the end. -/
theorem tracks_prefixes_iff (hs : s.Settled host.allocates) (ht : s.registry.tracks pid = true)
    (he : ∀ event ∈ events, event ≠ .exited pid) :
    (∀ first, first <+: events → (s.feed host settings first).registry.tracks pid = true) ↔
      pid ∉ s.waiting ∨ pid ∈ (s.feed host settings events).waiting := by
  induction events generalizing s with
  | nil =>
    refine ⟨fun _ => ?_, fun _ first hf => ?_⟩
    · by_cases hw : pid ∈ s.waiting
      · exact .inr hw
      · exact .inl hw
    · rw [List.prefix_nil.1 hf]
      exact ht
  | cons event events ih =>
    obtain ⟨hnow, hlater⟩ := List.forall_mem_cons.1 he
    have hs' := settled_observe settings event hs
    constructor
    · intro hall
      have ht' := hall [event] (List.prefix_append _ events)
      have hlast := (ih hs' ht' hlater).1 fun first hf =>
        hall (event :: first) (List.cons_prefix_cons.2 ⟨rfl, hf⟩)
      rcases hlast with hout | hin
      · by_cases hw : pid ∈ s.waiting
        · exact absurd ht' (untracked_observe hs hw hout)
        · exact .inl hw
      · exact .inr hin
    · intro hcond first hf
      by_cases hw : pid ∈ s.waiting
      · -- it waits to the end, as nobody begins to wait again
        have hlast := hcond.resolve_left (not_not_intro hw)
        have hwait' : pid ∈ (s.observe host settings event).session.waiting := by
          by_contra hout
          exact not_waiting_feed hs' hout hlater hlast
        cases first with
        | nil => exact ht
        | cons e first =>
          obtain ⟨rfl, hfirst⟩ := List.cons_prefix_cons.1 hf
          exact (ih hs' (hs'.tracks hwait') hlater).2 (.inr hlast) first hfirst
      · exact tracks_feed hs hw ht fun e hmem => he e (hf.subset hmem)

/-! ## The others of a family leave -/

theorem hasMember_exited {other x : Pid} (hs : s.Settled host.allocates) (hx : x ≠ pid)
    (hm : HasMember (s.observe host settings (.exited other)).session.registry.families pid x) :
    HasMember s.registry.families pid x ∧ x ≠ other := by
  obtain ⟨after, hh, hsession, -, hback⟩ := handled_exited settings hs other
  rw [hsession] at hm
  obtain ⟨hbefore, hidle⟩ := hback pid x ((hh.round.members pid x).1 hm).1
  refine ⟨hbefore, fun heq => ?_⟩
  subst heq
  refine absurd rfl (hidle ?_)
  rw [← Bool.not_eq_true, hs.sound.isBusyRoot_iff]
  intro hbusy
  exact hx (hs.sound.root_of_member hbusy.1 hbefore)

theorem exists_release (settings : WatchSettings) (hs : s.Settled host.allocates)
    (hw : pid ∈ s.waiting) (others : List Pid) (hpid : pid ∉ others) (hall : ∀ other, other ≠ pid →
      HasMember s.registry.families pid other → other ∈ others) :
    ∃ events, (∀ event ∈ events, event ≠ .exited pid) ∧
      ¬ (s.feed host settings events).registry.tracks pid = true := by
  induction others generalizing s with
  | nil =>
    obtain ⟨-, other, hne, ho⟩ := hs.sound.isBusyRoot_iff.1 (hs.busy pid hw)
    exact absurd (hall other hne ho) List.not_mem_nil
  | cons other others ih =>
    obtain ⟨hne, hrest⟩ := not_or.1 (mt List.mem_cons.2 hpid)
    have hexit : ProcessEvent.exited other ≠ .exited pid := by
      intro heq
      cases heq
      exact hne rfl
    have hs' := settled_observe settings (.exited other) hs
    by_cases hw' : pid ∈ (s.observe host settings (.exited other)).session.waiting
    · have hall' : ∀ x, x ≠ pid → HasMember
          (s.observe host settings (.exited other)).session.registry.families pid x →
          x ∈ others := by
        intro x hx hm
        obtain ⟨hbefore, hxo⟩ := hasMember_exited hs hx hm
        exact (List.mem_cons.1 (hall x hx hbefore)).resolve_left hxo
      obtain ⟨events, he, hgone⟩ := ih hs' hw' hrest hall'
      refine ⟨.exited other :: events, ?_, hgone⟩
      exact List.forall_mem_cons.2 ⟨hexit, he⟩
    · refine ⟨[.exited other], ?_, untracked_observe hs hw hw'⟩
      exact List.forall_mem_cons.2 ⟨hexit, by simp⟩

/-! ## A pid that is in use again -/

section
variable {parent creator root : Pid}

theorem throughout_iff (hs : s.Settled host.allocates)
    (ha : (s.observe host settings (.created pid parent creator)).answer = some (.attached root))
    (he : ∀ event ∈ events, event ≠ .exited pid) :
    let born := (s.observe host settings (.created pid parent creator)).session
    (∀ first, first <+: events → (born.feed host settings first).registry.tracks pid = true) ↔
      pid ∉ s.waiting ∨ pid ∈ (born.feed host settings events).waiting := by
  intro born
  have hborn : born.Settled host.allocates := settled_observe settings _ hs
  by_cases hw : pid ∈ s.waiting
  · by_cases hw' : pid ∈ born.waiting
    · rw [tracks_prefixes_iff hborn (hborn.tracks hw') he]
      simp [hw, hw']
    · -- it is gone at once, and waits no more
      have hgone := untracked_observe hs hw hw'
      refine iff_of_false (fun hall => hgone (hall [] List.nil_prefix)) ?_
      intro hcond
      rcases hcond with hout | hin
      · exact hout hw
      · exact not_waiting_feed hborn hw' he hin
  · have hw' : pid ∉ born.waiting := not_waiting_observe hs hw nofun
    rw [tracks_prefixes_iff hborn (tracks_attached hs hw ha) he]
    simp [hw, hw']

theorem others_of_family {reg : Registry} {other : Pid} (hne : other ≠ pid)
    (hm : HasMember reg.families pid other) :
    other ∈ (reg.families.flatMap fun f => f.members.items).filter (· ≠ pid) := by
  obtain ⟨f, hf, -, ho⟩ := hm
  rw [List.mem_filter]
  exact ⟨List.mem_flatMap.2 ⟨f, hf, ho⟩, by simpa using hne⟩

theorem always_iff (hs : s.Settled host.allocates)
    (ha : (s.observe host settings (.created pid parent creator)).answer = some (.attached root)) :
    let born := (s.observe host settings (.created pid parent creator)).session
    (∀ after, (∀ event ∈ after, event ≠ .exited pid) →
      (born.feed host settings after).registry.tracks pid = true) ↔ pid ∉ s.waiting := by
  intro born
  have hborn : born.Settled host.allocates := settled_observe settings _ hs
  by_cases hw : pid ∈ s.waiting
  · refine iff_of_false (fun hall => ?_) (not_not_intro hw)
    by_cases hw' : pid ∈ born.waiting
    · obtain ⟨events, he, hgone⟩ := exists_release settings hborn hw'
        ((born.registry.families.flatMap fun f => f.members.items).filter (· ≠ pid))
        (by simp) fun other => others_of_family
      exact hgone (hall events he)
    · exact untracked_observe hs hw hw' (hall [] (by simp))
  · have ht : born.registry.tracks pid = true := tracks_attached hs hw ha
    have hw' : pid ∉ born.waiting := not_waiting_observe hs hw nofun
    exact iff_of_true (fun after he => tracks_feed hborn hw' ht he) hw

/-- A process that was let in has lost its place at some time, without an exit of its own, exactly
when an exit was waiting under its pid when it was let in, and waits no longer. Nothing can take the
place from it exactly when no exit was waiting. -/
theorem attached_stays {reg : Registry} (h : Registry.Reachable host.allocates limits reg)
    (before : List ProcessEvent) :
    let s := feed host settings { registry := reg } before
    let born := s.observe host settings (.created pid parent creator)
    born.answer = some (.attached root) →
      (∀ after, (∀ event ∈ after, event ≠ .exited pid) →
        ((∀ first, first <+: after →
            (born.session.feed host settings first).registry.tracks pid = true) ↔
          pid ∉ s.waiting ∨ pid ∈ (born.session.feed host settings after).waiting)) ∧
      ((∀ after, (∀ event ∈ after, event ≠ .exited pid) →
          (born.session.feed host settings after).registry.tracks pid = true) ↔
        pid ∉ s.waiting) := by
  intro s born ha
  have hs : s.Settled host.allocates := settled_feed (settled_of_reachable h) before
  exact ⟨fun after he => throughout_iff hs ha he, always_iff hs ha⟩

end

def patientHost : Host where
  allocates _ := true
  isRunning _ := true
  terminate _ := .ok ()
  elapses _ := false

def twoRoots : Registry :=
  (Registry.empty {}).execAll patientHost.allocates
    [.found ⟨40⟩ .invalid .noRestriction, .found ⟨50⟩ .invalid .noRestriction]

theorem reachable_twoRoots : Registry.Reachable patientHost.allocates {} twoRoots :=
  Registry.Reachable.execAll _ .empty

/-- The exit of 40 has waited for 41 and is done, so 40 is free to be used again. -/
theorem attached_stays_after_release :
    let s := feed patientHost {} { registry := twoRoots }
      [.created ⟨41⟩ ⟨40⟩ ⟨40⟩, .exited ⟨40⟩, .exited ⟨41⟩]
    let born := s.observe patientHost {} (.created ⟨40⟩ ⟨50⟩ ⟨50⟩)
    s.waiting = [] ∧ born.answer = some (.attached ⟨50⟩) ∧
      ∀ after, (∀ event ∈ after, event ≠ .exited ⟨40⟩) →
        (born.session.feed patientHost {} after).registry.tracks ⟨40⟩ = true := by
  intro s born
  have hw : s.waiting = [] := by decide +kernel
  have ha : born.answer = some (.attached ⟨50⟩) := by decide +kernel
  have hfree : ⟨40⟩ ∉ s.waiting := by simp [hw]
  exact ⟨hw, ha, (attached_stays reachable_twoRoots _ ha).2.2 hfree⟩

/-- The exit of 40 waits for 41, which starts a new 40. When 41 exits, the new 40 is taken out. -/
theorem not_attached_stays : ¬ ∀ (host : Host) (settings : WatchSettings) (limits : Limits)
    (reg : Registry) (before after : List ProcessEvent) (pid parent creator root : Pid),
    Registry.Reachable host.allocates limits reg →
    let s := feed host settings { registry := reg } before
    let born := s.observe host settings (.created pid parent creator)
    born.answer = some (.attached root) → (∀ event ∈ after, event ≠ .exited pid) →
      (born.session.feed host settings after).registry.tracks pid = true := by
  intro hall
  have hbad := hall patientHost {} {} twoRoots [.created ⟨41⟩ ⟨40⟩ ⟨40⟩, .exited ⟨40⟩]
    [.exited ⟨41⟩] ⟨40⟩ ⟨41⟩ ⟨41⟩ ⟨40⟩ reachable_twoRoots (by decide +kernel) (by simp)
  revert hbad
  decide +kernel

end Containment.Session
