import Containment.Machine
import Containment.Proofs.Watching

/-!
# Processes for which there is no room

A new process that finds its parent's family full is in no family yet, so the creator's family is
asked. Only what that one answers decides what is done. If there is no such family, or a dead one,
nobody hears that the first was full, and the process runs on outside all families. In all other
cases it is let in or terminated (`accounted_iff`).
-/

namespace Containment

variable {host : Host} {settings : WatchSettings} {allocates allocates' : Allocator}
variable {limits : Limits}
variable {reg : Registry} {slot : Slot} {pid parent creator child anchor : Pid}

/-! ## What the family that is asked answers -/

namespace Family

variable {f : Family}

/-- The family takes `pid` in when it has room. A root that comes back when nobody is left needs
storage anew. -/
def OpenTo (allocates : Allocator) (f : Family) (pid : Pid) : Prop :=
  f.isLive = true ∨ f.root = pid ∧ (f.members.prepare allocates).isOk = true

theorem prepare_of_isLive (hlive : f.isLive = true) :
    (f.members.prepare allocates).isOk = true := by
  have hroot : f.root ∈ f.members.items := isLive_iff.1 hlive
  unfold BoundedSet.items at hroot
  unfold BoundedSet.prepare
  cases hs : f.members.storage with
  | none => simp [hs] at hroot
  | some xs => rfl

theorem enroll_of_open (hnew : pid ∉ f.members.items) (hopen : f.OpenTo allocates pid) :
    (∃ g, f.enroll allocates pid = .ok g) ∨
      f.enroll allocates pid = .error .capacityExhausted := by
  have hprepared : (f.members.prepare allocates).isOk = true :=
    hopen.elim prepare_of_isLive And.right
  have hknown : (pid != f.root && !f.isLive) = false := by
    rcases hopen with hlive | ⟨hroot, -⟩
    · simp [hlive]
    · simp [hroot]
  unfold enroll
  rw [hknown, if_neg Bool.false_ne_true]
  rcases f.members.prepare_cases allocates with hsame | hfailed
  · rw [BoundedSet.insert_prepared hsame, if_neg hnew]
    split
    · exact .inr rfl
    · exact .inl ⟨_, rfl⟩
  · rw [hfailed] at hprepared
    cases hprepared

theorem enroll_of_closed (hclosed : ¬ f.OpenTo allocates pid) :
    f.enroll allocates pid = .error .treeDead ∨
      f.enroll allocates pid = .error .uninitialized := by
  rw [OpenTo, not_or, Bool.not_eq_true] at hclosed
  by_cases hroot : pid = f.root
  · right
    rcases f.members.prepare_cases allocates with hprepared | hfailed
    · exact absurd ⟨hroot.symm, by rw [hprepared]; rfl⟩ hclosed.2
    · unfold enroll
      rw [BoundedSet.insert_unprepared hfailed, hroot]
      simp [Except.map]
  · exact .inl (enroll_dead hroot hclosed.1)

end Family

namespace Registry

theorem enroll_exhausted (h : SoundTable allocates reg.families)
    (hfull : (reg.enroll allocates' child anchor).answer = .error .capacityExhausted) :
    child.isValid = true ∧ ∀ root, ¬ HasMember reg.families root child :=
  (enroll_attempt h allocates' child anchor).exhausted hfull

section
variable (hchild : child.isValid = true) (hanchor : anchor.isValid = true)

include hchild hanchor in
theorem answer_enroll_unnamed (hs : reg.slotOfAnchor? anchor = none) :
    (reg.enroll allocates child anchor).answer = .error .noParent := by
  unfold enroll
  rw [hchild, hanchor, hs]
  rfl

include hchild hanchor in
theorem answer_enroll_named (allocates : Allocator)
    (hno : ∀ root, ¬ HasMember reg.families root child)
    (hs : reg.slotOfAnchor? anchor = some slot) :
    (reg.enroll allocates child anchor).answer =
      (slot.family.enroll allocates child).map fun _ => () := by
  have hfree : reg.slotOfMember? child = none :=
    slotOfMember?_eq_none.2 fun f hf hp => hno f.root ⟨f, hf, rfl, hp⟩
  have hasked : reg.enroll allocates child anchor = reg.enrollAt allocates slot child := by
    unfold enroll
    rw [hchild, hanchor, hs]
    rfl
  rw [hasked, enrollAt, hfree, Option.any_none, if_neg Bool.false_ne_true, answer_record]

end

/-- The family that `anchor` names takes `pid` in when it has room. -/
def OpenTo (allocates : Allocator) (reg : Registry) (anchor pid : Pid) : Prop :=
  ∃ slot, reg.slotOfAnchor? anchor = some slot ∧ slot.family.OpenTo allocates pid

end Registry

/-! ## What is done about the answer -/

namespace ProcessEvent

open Script

theorem react_yields_attached {blocksDead : Bool} :
    Yields host (react settings pid (.ok ()) blocksDead) reg (.attached (reg.rootOf pid)) reg [] :=
  .bind .ask .pure

theorem react_yields_ignored {blocksDead : Bool} :
    Yields host (react settings pid (.error .noParent) blocksDead) reg .ignored reg [] := .pure

/-! ## Who is accounted for -/

variable (h : SoundTable allocates reg.families)
  (hterminates : settings.terminateOnExhaustion = true) (hkill : host.terminate pid = .ok ())
  (hfull : (reg.enroll host.allocates pid parent).answer = .error .capacityExhausted)

include hterminates hkill in
theorem created_terminated
    (hlast : Yields host (enrollChild pid parent creator) reg (.error .capacityExhausted) reg []) :
    Yields host ((ProcessEvent.created pid parent creator).handle settings) reg
      (.terminated pid .capacityExhausted) reg [pid] :=
  .bind hlast (refused_yields_terminated hterminates hkill)

include h hfull in
theorem created_unaccounted (settings : WatchSettings) (hv : creator.isValid = true)
    (hne : creator ≠ parent) (hclosed : ¬ reg.OpenTo host.allocates creator pid) :
    ∃ reaction, Yields host ((ProcessEvent.created pid parent creator).handle settings) reg
      reaction reg [] := by
  obtain ⟨hpid, hno⟩ := Registry.enroll_exhausted h hfull
  have hsame := (Registry.enroll_intake h _ pid parent).same_of_error hfull
  have hsecond := enrollChild_yields_second hfull hsame (by decide) hv hne
  have hrefused {cause : Refusal}
      (ha : (reg.enroll host.allocates pid creator).answer = .error cause) :
      Yields host (enrollChild pid parent creator) reg (.error cause) reg [] := by
    rw [ha, (Registry.enroll_intake h _ pid creator).same_of_error ha] at hsecond
    exact hsecond
  -- the second answer has taken the place of the first, and none of these is a reason to terminate
  cases hs : reg.slotOfAnchor? creator with
  | none =>
    exact ⟨_, .bind (hrefused (Registry.answer_enroll_unnamed hpid hv hs)) react_yields_ignored⟩
  | some slot =>
    have hanswer := Registry.answer_enroll_named hpid hv host.allocates hno hs
    rcases Family.enroll_of_closed fun hopen => hclosed ⟨slot, hs, hopen⟩ with hdead | hbare
    · rw [hdead] at hanswer
      exact ⟨_, .bind (hrefused hanswer) (refused_yields_rejected rfl)⟩
    · rw [hbare] at hanswer
      exact ⟨_, .bind (hrefused hanswer) (refused_yields_rejected rfl)⟩

include h hterminates hkill hfull in
theorem created_accounted (hv : creator.isValid = true) (hne : creator ≠ parent)
    (hopen : reg.OpenTo host.allocates creator pid) : ∃ reaction after killed,
      Yields host ((ProcessEvent.created pid parent creator).handle settings) reg reaction after
        killed ∧ (after.tracks pid = true ∨ pid ∈ killed) := by
  obtain ⟨hpid, hno⟩ := Registry.enroll_exhausted h hfull
  have hsame := (Registry.enroll_intake h _ pid parent).same_of_error hfull
  have hsecond := enrollChild_yields_second hfull hsame (by decide) hv hne
  have hintake := Registry.enroll_intake h host.allocates pid creator
  obtain ⟨slot, hs, hslot⟩ := hopen
  have hanswer := Registry.answer_enroll_named hpid hv host.allocates hno hs
  have hnew : pid ∉ slot.family.members.items := fun hp =>
    hno _ ⟨_, List.mem_of_getElem? (Registry.of_slotOfAnchor? hs), rfl, hp⟩
  rcases Family.enroll_of_open hnew hslot with ⟨g, htaken⟩ | hfullToo
  · rw [htaken] at hanswer
    have hplaced := hintake.placed h (.inl hanswer)
    rw [hanswer] at hsecond
    refine ⟨_, _, _, .bind hsecond react_yields_attached, .inl ?_⟩
    exact (hintake.grows h).sound.tracks_iff.2 hplaced
  · rw [hfullToo] at hanswer
    rw [hanswer, hintake.same_of_error hanswer] at hsecond
    exact ⟨_, _, _, created_terminated hterminates hkill hsecond, .inr (List.mem_singleton_self _)⟩

end ProcessEvent

/-- A process that its parent's family has no room for ends up in a family or terminated, unless a
second attempt is made, on a creator that names no family which would take it. -/
theorem accounted_iff (h : Registry.Reachable allocates limits reg)
    (hterminates : settings.terminateOnExhaustion = true) (hkill : host.terminate pid = .ok ())
    (hfull : (reg.enroll host.allocates pid parent).answer = .error .capacityExhausted) :
    let run := ((ProcessEvent.created pid parent creator).handle settings).run host reg
    (∃ reaction, run.progress = .finished reaction) ∧
      ((run.registry.tracks pid = true ∨ pid ∈ run.killed) ↔
        creator.isValid = false ∨ creator = parent ∨
          reg.OpenTo host.allocates creator pid) := by
  have hs := h.sound
  obtain ⟨hpid, hno⟩ := Registry.enroll_exhausted hs hfull
  intro run
  by_cases hsecond : creator.isValid = true ∧ creator ≠ parent
  · obtain ⟨hv, hne⟩ := hsecond
    by_cases hopen : reg.OpenTo host.allocates creator pid
    · obtain ⟨reaction, after, killed, hy, ha⟩ :=
        ProcessEvent.created_accounted hs hterminates hkill hfull hv hne hopen
      rw [← hy.registry, ← hy.killed] at ha
      exact ⟨⟨reaction, hy.progress⟩, iff_of_true ha (.inr (.inr hopen))⟩
    · obtain ⟨reaction, hy⟩ :=
        ProcessEvent.created_unaccounted hs hfull settings hv hne hopen
      refine ⟨⟨reaction, hy.progress⟩, iff_of_false ?_ (by simp [hv, hne, hopen])⟩
      rw [hy.registry, hy.killed, hs.tracks_iff]
      simpa using hno
  · have hsame := (Registry.enroll_intake hs _ pid parent).same_of_error hfull
    have hy := ProcessEvent.created_terminated hterminates hkill
      (ProcessEvent.enrollChild_yields_first hfull hsame (by decide) hsecond)
    refine ⟨⟨_, hy.progress⟩, iff_of_true (.inr ?_) ?_⟩
    · rw [hy.killed]
      exact List.mem_singleton_self _
    · by_cases hv : creator.isValid = true
      · exact .inr (.inl (by simpa [hv] using hsecond))
      · exact .inl (by simpa using hv)

def crowded : Registry :=
  (Registry.empty { maxMembers := 2 }).execAll Machine.addressable
    [.found ⟨10⟩ .invalid .noRestriction, .enroll ⟨11⟩ ⟨10⟩, .found ⟨20⟩ .invalid .noRestriction]

theorem reachable_crowded :
    Registry.Reachable Machine.addressable { maxMembers := 2 } crowded :=
  Registry.Reachable.execAll _ .empty

theorem accounted_iff_creator :
    let host := ({} : Machine).host
    let run := ((ProcessEvent.created ⟨12⟩ ⟨10⟩ ⟨20⟩).handle {}).run host crowded
    Registry.Reachable host.allocates { maxMembers := 2 } crowded ∧
      host.terminate ⟨12⟩ = .ok () ∧
      (crowded.enroll host.allocates ⟨12⟩ ⟨10⟩).answer = .error .capacityExhausted ∧
      crowded.OpenTo host.allocates ⟨20⟩ ⟨12⟩ ∧
      (run.registry.tracks ⟨12⟩ = true ∨ ⟨12⟩ ∈ run.killed) := by
  intro host run
  have hkill : host.terminate ⟨12⟩ = .ok () := rfl
  have hfull : (crowded.enroll host.allocates ⟨12⟩ ⟨10⟩).answer = .error .capacityExhausted := by
    decide
  have hopen : crowded.OpenTo host.allocates ⟨20⟩ ⟨12⟩ := ⟨⟨1, _⟩, rfl, .inl (by decide)⟩
  refine ⟨reachable_crowded, hkill, hfull, hopen, ?_⟩
  exact (accounted_iff reachable_crowded rfl hkill hfull).2.2 (.inr (.inr hopen))

/-- The family of 10 is full, and 99, which asked for 12, is in no family. So 12 is ignored. -/
theorem not_accounted : ¬ ∀ (host : Host) (settings : WatchSettings) (limits : Limits)
    (reg : Registry) (pid parent creator : Pid), Registry.Reachable host.allocates limits reg →
    settings.terminateOnExhaustion = true → host.terminate pid = .ok () →
    (reg.enroll host.allocates pid parent).answer = .error .capacityExhausted →
      let run := ((ProcessEvent.created pid parent creator).handle settings).run host reg
      run.registry.tracks pid = true ∨ pid ∈ run.killed := by
  intro hall
  have hbad := hall ({} : Machine).host {} { maxMembers := 2 } crowded ⟨12⟩ ⟨10⟩ ⟨99⟩
    reachable_crowded rfl rfl (by decide)
  revert hbad
  decide

end Containment
