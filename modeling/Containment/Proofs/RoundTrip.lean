import Containment.Proofs.Anchor
import Containment.Proofs.Exhaustion
import Containment.Proofs.Wakeups

/-!
# Families that come and go

A family that has just been founded has the last slot, and it stays there as long as nothing else
happens than that its processes call, and that something is taken out of it. A process of it may
also be the root of another family, which it has left. What is asked of that family is refused, as
it is not live. So nothing but the last slot ever changes, and when the last process has left, the
registry is what it was before (`round_trip`).
-/

namespace Containment

variable {allocates : Allocator} {limits : Limits} {reg before now : Registry} {slot : Slot}
variable {f g : Family} {i : Nat} {root pid child anchor : Pid} {file origin : FileId}
variable {policy : Policy} {call : Call} {calls : List Call}

namespace Registry

/-! ## The last slot -/

def push (reg : Registry) (f : Family) : Registry := { reg with families := reg.families ++ [f] }

theorem getElem?_push : (reg.push f).families[reg.families.length]? = some f := by
  simp [push]

theorem put_push : (reg.push f).put reg.families.length g = reg.push g := by
  simp [push, put]

theorem settle_push : ((reg.push f).settle reg.families.length g).registry =
    if g.isSpent then reg else reg.push g := by
  unfold settle
  split
  · simp [collect, push, swapRemove_last]
  · exact put_push

theorem found_eq_ok (h : (reg.found allocates root origin policy).answer = .ok ()) :
    (∀ f ∈ reg.families, f.root ≠ root) ∧
      ∃ f, f.root = root ∧ f.policy = policy ∧
        (reg.found allocates root origin policy).registry = reg.push f := by
  unfold found at h ⊢
  split at h
  · cases h
  rename_i hv
  split at h
  · cases h
  rename_i hfresh
  split at h
  · cases h
  rename_i hroom
  split at h
  · cases h
  rename_i f hf
  rw [if_neg hv, if_neg hfresh, if_neg hroom]
  obtain ⟨-, heq⟩ := Family.founded_eq_ok hf
  refine ⟨?_, f, by rw [heq], by rw [heq], rfl⟩
  intro g hg hroot
  apply hfresh
  simp only [List.any_eq_true, Bool.or_eq_true, beq_iff_eq]
  exact ⟨g, hg, .inl hroot⟩

/-! ## Through whom a family is asked -/

theorem anchor_cases (h : SoundTable allocates reg.families) (hi : reg.families[i]? = some f)
    (hp : anchor ∈ f.members.items) (hs : reg.slotOfAnchor? anchor = some slot) :
    slot = ⟨i, f⟩ ∨
      slot.index ≠ i ∧ slot.family.root = anchor ∧ slot.family.isLive = false := by
  rcases Option.or_eq_some_iff.1 hs with hs | ⟨-, hs⟩
  · obtain ⟨hj, hroot⟩ := of_slotOfRoot? hs
    by_cases hp' : anchor ∈ slot.family.members.items
    · exact .inl (h.slot_of_member hj hi hp' hp)
    · refine .inr ⟨?_, hroot, ?_⟩
      · intro heq
        rw [heq, hi] at hj
        cases hj
        exact hp' hp
      · rwa [← Bool.not_eq_true, Family.isLive_iff, hroot]
  · rw [h.slotOfMember? hi hp] at hs
    exact .inl (Option.some.inj hs).symm

theorem enrollAt_in_vain (hdead : slot.family.isLive = false)
    (helsewhere : pid = slot.family.root →
      ∃ other, reg.slotOfMember? pid = some other ∧ other.index ≠ slot.index) :
    (reg.enrollAt allocates slot pid).registry = reg := by
  by_cases hroot : pid = slot.family.root
  · obtain ⟨other, ho, hne⟩ := helsewhere hroot
    unfold enrollAt
    rw [ho, if_pos (by simpa using hne)]
    rfl
  · exact (enrollAt_dead hroot hdead).1

theorem claimAt_dead (hdead : slot.family.isLive = false) :
    (reg.claimAt allocates slot file).registry = reg := by
  simp [claimAt, Family.claim, hdead, record]

theorem members_push (h : SoundTable allocates (reg.push f).families) :
    (reg.push f).members f.root = f.members.items := by
  simp [members, h.slotOfRoot? getElem?_push]

theorem files_push (h : SoundTable allocates (reg.push f).families) :
    (reg.push f).files f.root = f.files.items := by
  simp [files, h.slotOfRoot? getElem?_push]

/-! ## The family in the last slot -/

/-- `now` is `before`, or it has one family more in the last slot, which is rooted at `root` and
goes with its last process. -/
inductive Beside (before : Registry) (root : Pid) : Registry → Prop
  | gone : Beside before root before
  | there (f : Family) (hroot : f.root = root) (hpolicy : f.policy = .noRestriction) :
    Beside before root (before.push f)

namespace Beside

theorem settle (hroot : g.root = root) (hpolicy : g.policy = .noRestriction) :
    Beside before root ((before.push f).settle before.families.length g).registry := by
  rw [settle_push]
  split
  · exact .gone
  · exact .there g hroot hpolicy

theorem record {item : Item} {taken : Except Refusal Family} (hroot : f.root = root)
    (hpolicy : f.policy = .noRestriction)
    (htaken : ∀ g, taken = .ok g → g.root = f.root ∧ g.policy = f.policy) :
    Beside before root
      ((before.push f).record ⟨before.families.length, f⟩ item taken).registry := by
  rcases record_cases (before.push f) ⟨before.families.length, f⟩ item taken with
    ⟨g, ht, -, hr⟩ | ⟨cause, -, -, hr⟩
  · rw [hr]
    obtain ⟨hroot', hpolicy'⟩ := htaken g ht
    rw [put_push]
    exact .there g (hroot'.trans hroot) (hpolicy'.trans hpolicy)
  · rw [hr]
    exact .there f hroot hpolicy

theorem enrollAt (hroot : f.root = root) (hpolicy : f.policy = .noRestriction) :
    Beside before root
      ((before.push f).enrollAt allocates ⟨before.families.length, f⟩ pid).registry := by
  unfold Registry.enrollAt
  split
  · exact .there f hroot hpolicy
  · apply record hroot hpolicy
    intro g hg
    obtain ⟨-, members, -, rfl⟩ := Family.enroll_eq_ok hg
    exact ⟨rfl, rfl⟩

theorem claimAt (hroot : f.root = root) (hpolicy : f.policy = .noRestriction) :
    Beside before root
      ((before.push f).claimAt allocates ⟨before.families.length, f⟩ file).registry := by
  apply record hroot hpolicy
  intro g hg
  obtain ⟨-, files, -, rfl⟩ := Family.claim_eq_ok hg
  exact ⟨rfl, rfl⟩

section
variable (h : SoundTable allocates (before.push f).families)
  (hroot : f.root = root) (hpolicy : f.policy = .noRestriction)

include h hroot hpolicy

theorem enroll (ha : anchor ∈ f.members.items) :
    Beside before root ((before.push f).enroll allocates child anchor).registry := by
  unfold Registry.enroll
  split
  · exact .there f hroot hpolicy
  split
  · exact .there f hroot hpolicy
  rename_i slot hs
  rcases anchor_cases h getElem?_push ha hs with rfl | ⟨hne, hnamed, hdead⟩
  · exact enrollAt hroot hpolicy
  · rw [enrollAt_in_vain hdead]
    · exact .there f hroot hpolicy
    · intro heq
      rw [heq, hnamed]
      exact ⟨_, h.slotOfMember? getElem?_push ha, Ne.symm hne⟩

theorem claim (ha : anchor ∈ f.members.items)
    (hfree : ∀ g ∈ before.families, file ∉ g.files.items) :
    Beside before root ((before.push f).claim allocates file anchor).registry := by
  have hsame : Beside before root (before.push f) := .there f hroot hpolicy
  unfold Registry.claim
  split
  · exact hsame
  split
  · exact hsame
  rename_i slot hs
  have hasked : Beside before root ((before.push f).claimAt allocates slot file).registry := by
    rcases anchor_cases h getElem?_push ha hs with rfl | ⟨-, -, hdead⟩
    · exact claimAt hroot hpolicy
    · rw [claimAt_dead hdead]
      exact hsame
  split
  · exact hasked
  rename_i holder hholder
  obtain ⟨hj, hfile⟩ := of_slotOfFile? hholder
  have hholds : file ∈ f.files.items := by
    rcases List.mem_append.1 (List.mem_of_getElem? hj) with hmem | hmem
    · exact absurd hfile (hfree _ hmem)
    · rwa [List.mem_singleton.1 hmem] at hfile
  -- the holder is the new family itself, from which nothing is reclaimed
  obtain rfl : holder = ⟨before.families.length, f⟩ :=
    h.slot_of_file hj getElem?_push hfile hholds
  have hstaffed : f.members.isEmpty = false := by
    rw [← Bool.not_eq_true, BoundedSet.isEmpty_iff]
    exact fun hempty => hempty anchor ha
  split
  · exact hasked
  · rw [hstaffed]
    exact hsame

theorem dismiss (hp : pid ∈ f.members.items) :
    Beside before root ((before.push f).dismiss pid).registry := by
  have hf : f ∈ (before.push f).families := List.mem_of_getElem? getElem?_push
  unfold Registry.dismiss
  rw [(h.sound f hf).valid_of_member hp, h.slotOfMember? getElem?_push hp]
  exact settle hroot hpolicy

theorem disown (hp : file ∈ f.files.items) :
    Beside before root ((before.push f).disown file).registry := by
  have hf : f ∈ (before.push f).families := List.mem_of_getElem? getElem?_push
  rw [registry_disown ((h.sound f hf).valid_of_file hp) (h.slotOfFile? getElem?_push hp)]
  exact settle hroot hpolicy

end

end Beside

/-! ## Calls through members of the family -/

end Registry

/-- Whether a call is made through a process of the family rooted at `root`, or takes something out
of this family. Only files are claimed that nobody owned in `before`. -/
def Call.isInside (before now : Registry) (root : Pid) : Call → Bool
  | .enroll _ anchor => (now.members root).contains anchor
  | .claim file anchor => (now.members root).contains anchor && !(before.rootOfFile file).isValid
  | .dismiss pid => (now.members root).contains pid
  | .disown file => (now.files root).contains file
  | _ => false

namespace Registry

def staysInside (allocates : Allocator) (before : Registry) (root : Pid) (now : Registry) :
    List Call → Bool
  | [] => true
  | call :: calls => call.isInside before now root &&
      staysInside allocates before root (now.exec allocates call).registry calls

section
variable (h : SoundTable allocates reg.families) (hnew : ∀ f ∈ reg.families, f.root ≠ root)

include hnew in
theorem not_hasMember_of_new : ¬ HasMember reg.families root pid := by
  rintro ⟨f, hf, hroot, -⟩
  exact hnew f hf hroot

include h in
theorem free_of_rootOfFile (hfree : (reg.rootOfFile file).isValid = false) :
    ∀ g ∈ reg.families, file ∉ g.files.items := by
  intro g hg hx
  rw [h.rootOfFile ⟨g, hg, rfl, hx⟩, (h.sound g hg).root] at hfree
  cases hfree

include h hnew in
theorem Beside.exec (hb : Beside reg root now) (hs : SoundTable allocates now.families)
    (hin : call.isInside reg now root = true) :
    Beside reg root (now.exec allocates call).registry := by
  cases hb with
  | gone =>
    have hmembers (p : Pid) : p ∉ reg.members root := by
      rw [h.mem_members]
      exact not_hasMember_of_new hnew
    have hfiles (x : FileId) : x ∉ reg.files root := by
      rw [h.mem_files]
      rintro ⟨f, hf, hroot, -⟩
      exact hnew f hf hroot
    -- there is nothing any more that a call could be inside of
    cases call <;> simp [Call.isInside, hmembers, hfiles] at hin
  | there f hroot hpolicy =>
    subst hroot
    cases call with
    | enroll child anchor =>
      have ha : anchor ∈ f.members.items := by simpa [Call.isInside, members_push hs] using hin
      exact Beside.enroll hs rfl hpolicy ha
    | claim file anchor =>
      have hboth : anchor ∈ f.members.items ∧ (reg.rootOfFile file).isValid = false := by
        simpa [Call.isInside, members_push hs] using hin
      exact Beside.claim hs rfl hpolicy hboth.1 (free_of_rootOfFile h hboth.2)
    | dismiss pid =>
      have hp : pid ∈ f.members.items := by simpa [Call.isInside, members_push hs] using hin
      exact Beside.dismiss hs rfl hpolicy hp
    | disown file =>
      have hx : file ∈ f.files.items := by simpa [Call.isInside, files_push hs] using hin
      exact Beside.disown hs rfl hpolicy hx
    | _ => cases hin

include h hnew in
theorem Beside.execAll (hb : Beside reg root now) (hs : SoundTable allocates now.families)
    (hin : staysInside allocates reg root now calls = true) :
    Beside reg root (now.execAll allocates calls) := by
  induction calls generalizing now with
  | nil => exact hb
  | cons call calls ih =>
    obtain ⟨hcall, hcalls⟩ := Bool.and_eq_true_iff.1 hin
    exact ih (hb.exec h hnew hs hcall) (sound_exec hs call) hcalls

include h hnew in
theorem Beside.execAll_dismiss {order : List Pid} (hb : Beside reg root now)
    (hr : Reachable allocates limits now) (hnodup : order.Nodup)
    (hall : ∀ x, x ∈ order ↔ HasMember now.families root x) :
    now.execAll allocates (order.map .dismiss) = reg := by
  induction order generalizing now with
  | nil =>
    cases hb with
    | gone => rfl
    | there f hroot hpolicy =>
      have hf : f ∈ (reg.push f).families := List.mem_of_getElem? getElem?_push
      have hempty : ∀ x, x ∉ f.members.items := fun x hx =>
        List.not_mem_nil ((hall x).2 ⟨f, hf, hroot, hx⟩)
      have hspent : f.isSpent = true := by
        simp [Family.isSpent, hpolicy, BoundedSet.isEmpty_iff.2 hempty]
      -- so it has been collected with its last process
      rw [hr.present f hf] at hspent
      cases hspent
  | cons pid order ih =>
    obtain ⟨hout, hnodup⟩ := List.nodup_cons.1 hnodup
    have hpid : pid ∈ now.members root := by
      rw [hr.sound.mem_members, ← hall]
      exact List.mem_cons_self
    have hstep : Beside reg root (now.exec allocates (.dismiss pid)).registry :=
      hb.exec h hnew hr.sound (by simpa [Call.isInside] using hpid)
    apply ih hstep (hr.call (.dismiss pid)) hnodup
    intro x
    have hleft : HasMember (now.dismiss pid).registry.families root x ↔
        x ≠ pid ∧ HasMember now.families root x := hasMember_dismiss hr.sound
    show x ∈ order ↔ HasMember (now.dismiss pid).registry.families root x
    rw [hleft, ← hall, List.mem_cons]
    constructor
    · intro hx
      exact ⟨fun heq => hout (heq ▸ hx), .inr hx⟩
    · rintro ⟨hne, hx⟩
      exact hx.resolve_left hne

end

/-- A family is founded that goes with its last process. Then its processes let others in and claim
files, also through pids that other families are rooted at, and processes and files are taken out of
it again. When all who are left have gone, in whatever order, the registry is exactly as before. -/
theorem round_trip (h : Reachable allocates limits reg)
    (hfound : (reg.found allocates root origin .noRestriction).answer = .ok ())
    (hinside : staysInside allocates reg root
      (reg.found allocates root origin .noRestriction).registry calls = true) :
    let last := (reg.found allocates root origin .noRestriction).registry.execAll allocates calls
    ∀ order : List Pid, order.Perm (last.members root) →
      last.execAll allocates (order.map .dismiss) = reg := by
  intro last order hperm
  obtain ⟨hnew, f, hroot, hpolicy, hpush⟩ := found_eq_ok hfound
  have hstart : Reachable allocates limits
      (reg.found allocates root origin .noRestriction).registry := h.call (.found root origin _)
  have hlast : Reachable allocates limits last := hstart.execAll calls
  have hbeside : Beside reg root last := by
    refine Beside.execAll h.sound hnew ?_ hstart.sound hinside
    rw [hpush]
    exact .there f hroot hpolicy
  refine hbeside.execAll_dismiss h.sound hnew hlast ?_ fun x => ?_
  · exact hperm.nodup_iff.2 (hlast.sound.nodup_members root)
  · rw [hperm.mem_iff, hlast.sound.mem_members]

/-- 10 has left its own family, which protects file 7, and is let into that of 30. What is asked of
it there is refused: 31 and file 9 are not taken, and file 8 is not given away. Nor is 21 taken, who
is in another family, or 33, when 30 itself has left. -/
theorem round_trip_twofold :
    let reg := (empty {}).execAll (fun _ => true)
      [.found ⟨10⟩ .invalid .protectDroppedFiles, .claim ⟨7⟩ ⟨10⟩, .dismiss ⟨10⟩,
        .found ⟨20⟩ .invalid .noRestriction, .enroll ⟨21⟩ ⟨20⟩]
    let start := (reg.found (fun _ => true) ⟨30⟩ ⟨5⟩ .noRestriction).registry
    let calls : List Call :=
      [.enroll ⟨10⟩ ⟨30⟩, .enroll ⟨31⟩ ⟨10⟩, .enroll ⟨21⟩ ⟨30⟩, .claim ⟨8⟩ ⟨30⟩, .claim ⟨8⟩ ⟨10⟩,
        .claim ⟨9⟩ ⟨10⟩, .enroll ⟨32⟩ ⟨30⟩, .dismiss ⟨30⟩, .enroll ⟨33⟩ ⟨32⟩, .claim ⟨6⟩ ⟨32⟩]
    let last := start.execAll (fun _ => true) calls
    Reachable (fun _ => true) {} reg ∧ staysInside (fun _ => true) reg ⟨30⟩ start calls = true ∧
      last.members ⟨30⟩ = [⟨10⟩, ⟨32⟩] ∧ last.files ⟨30⟩ = [⟨8⟩] ∧
      last.execAll (fun _ => true) (([⟨32⟩, ⟨10⟩] : List Pid).map .dismiss) = reg := by
  intro reg start calls last
  have h : Reachable (fun _ => true) {} reg := Reachable.execAll _ .empty
  have hfound : (reg.found (fun _ => true) ⟨30⟩ ⟨5⟩ .noRestriction).answer = .ok () := by decide
  have hinside : staysInside (fun _ => true) reg ⟨30⟩ start calls = true := by decide
  have hmembers : last.members ⟨30⟩ = [⟨10⟩, ⟨32⟩] := by decide
  have hfiles : last.files ⟨30⟩ = [⟨8⟩] := by decide
  have hperm : ([⟨32⟩, ⟨10⟩] : List Pid).Perm (last.members ⟨30⟩) := by
    rw [hmembers]
    decide
  exact ⟨h, hinside, hmembers, hfiles, round_trip h hfound hinside _ hperm⟩

end Registry

end Containment
