import Containment.Proofs.Ownership

/-!
# The order of the slots

Two registries that are alike have the same families, each in a slot of its own. Every look-up finds
the same family in both (`Slot.Twin`), and no call does more with an index than to write its slot
back or to tell it from another. So alike registries answer alike, and they stay alike over any run
of calls (`order_unobservable`).
-/

namespace Containment

variable {allocates : Allocator}

structure Registry.Alike (reg reg' : Registry) : Prop where
  limits : reg.limits = reg'.limits
  families : reg.families.Perm reg'.families

/-- The answers are the same in the sense of `same`, and nothing else tells the steps apart but the
order of the slots that they leave. -/
structure Step.Alike {α : Type} (same : α → α → Prop) (step step' : Step α) : Prop where
  answer : same step.answer step'.answer
  registry : step.registry.Alike step'.registry
  log : step.log = step'.log
  woken : step.woken = step'.woken

structure Slot.Twin (reg reg' : Registry) (slot slot' : Slot) : Prop where
  here : reg.families[slot.index]? = some slot.family
  there : reg'.families[slot'.index]? = some slot'.family
  family : slot.family = slot'.family

variable {reg reg' : Registry} {slot slot' other other' : Slot} {pid root : Pid} {file : FileId}

/-! ## Look-ups -/

/-- Where no two families satisfy `p`, the first one that does is the same in any order. -/
theorem Slot.find?_twin {p : Family → Bool} (h : reg.Alike reg')
    (hone : ∀ f ∈ reg.families, ∀ g ∈ reg.families, p f = true → p g = true → f = g) :
    Option.Rel (Twin reg reg') (find? p reg.families) (find? p reg'.families) := by
  cases hs : find? p reg.families with
  | none =>
    have hs' : find? p reg'.families = none := by
      rw [find?_eq_none] at hs ⊢
      exact fun f hf => hs f (h.families.mem_iff.2 hf)
    rw [hs']
    exact .none
  | some slot =>
    have hi := getElem?_of_find? hs
    have hp := satisfies_of_find? hs
    have hf := List.mem_of_getElem? hi
    obtain ⟨slot', hs'⟩ := isSome_find? (h.families.mem_iff.1 hf) hp
    have hi' := getElem?_of_find? hs'
    have hf' := h.families.mem_iff.2 (List.mem_of_getElem? hi')
    rw [hs']
    exact .some ⟨hi, hi', hone _ hf _ hf' hp (satisfies_of_find? hs')⟩

namespace Registry.Alike

theorem slotOfRoot? (h : reg.Alike reg') (hs : SoundTable allocates reg.families) (root : Pid) :
    Option.Rel (Slot.Twin reg reg') (reg.slotOfRoot? root) (reg'.slotOfRoot? root) := by
  unfold Registry.slotOfRoot?
  split
  · refine Slot.find?_twin h fun f hf g hg hp hp' => hs.eq_of_not_apart hf hg fun ha => ?_
    exact ha.roots ((beq_iff_eq.1 hp).trans (beq_iff_eq.1 hp').symm)
  · exact .none

theorem slotOfMember? (h : reg.Alike reg') (hs : SoundTable allocates reg.families) (pid : Pid) :
    Option.Rel (Slot.Twin reg reg') (reg.slotOfMember? pid) (reg'.slotOfMember? pid) := by
  refine Slot.find?_twin h fun f hf g hg hp hp' => hs.eq_of_not_apart hf hg fun ha => ?_
  exact ha.members (BoundedSet.contains_iff.1 hp) (BoundedSet.contains_iff.1 hp')

theorem slotOfFile? (h : reg.Alike reg') (hs : SoundTable allocates reg.families) (file : FileId) :
    Option.Rel (Slot.Twin reg reg') (reg.slotOfFile? file) (reg'.slotOfFile? file) := by
  refine Slot.find?_twin h fun f hf g hg hp hp' => hs.eq_of_not_apart hf hg fun ha => ?_
  exact ha.files (BoundedSet.contains_iff.1 hp) (BoundedSet.contains_iff.1 hp')

theorem slotOfAnchor? (h : reg.Alike reg') (hs : SoundTable allocates reg.families)
    (anchor : Pid) :
    Option.Rel (Slot.Twin reg reg') (reg.slotOfAnchor? anchor) (reg'.slotOfAnchor? anchor) := by
  have hroot := h.slotOfRoot? hs anchor
  unfold Registry.slotOfAnchor?
  generalize reg.slotOfRoot? anchor = found, reg'.slotOfRoot? anchor = found' at hroot
  cases hroot with
  | none => exact h.slotOfMember? hs anchor
  | some ht => exact .some ht

theorem familyCount (h : reg.Alike reg') : reg.familyCount = reg'.familyCount :=
  h.families.length_eq

theorem sound (h : reg.Alike reg') (hs : SoundTable allocates reg.families) :
    SoundTable allocates reg'.families := hs.perm h.families

end Registry.Alike

/-! ## Twins -/

namespace Slot.Twin

theorem rest (ht : Twin reg reg' slot slot') (h : reg.Alike reg') :
    (reg.families.eraseIdx slot.index).Perm (reg'.families.eraseIdx slot'.index) := by
  have hperm : (slot.family :: reg.families.eraseIdx slot.index).Perm
      (slot'.family :: reg'.families.eraseIdx slot'.index) :=
    ((perm_eraseIdx ht.here).symm.trans h.families).trans (perm_eraseIdx ht.there)
  rw [ht.family] at hperm
  exact hperm.cons_inv

theorem symm (ht : Twin reg reg' slot slot') : Twin reg' reg slot' slot :=
  ⟨ht.there, ht.here, ht.family.symm⟩

theorem index_eq (hs : SoundTable allocates reg'.families) (ht : Twin reg reg' slot slot')
    (ho : Twin reg reg' other other') (h : other.index = slot.index) :
    other'.index = slot'.index := by
  have hsame : other.family = slot.family := by
    have := ho.here
    rw [h, ht.here] at this
    exact (Option.some.inj this).symm
  have hroot : other'.family.root = slot'.family.root := by
    rw [← ho.family, ← ht.family, hsame]
  exact congrArg Slot.index (hs.slot_of_root ho.there ht.there hroot)

theorem index_eq_iff (hs : SoundTable allocates reg.families) (h : reg.Alike reg')
    (ht : Twin reg reg' slot slot') (ho : Twin reg reg' other other') :
    other.index = slot.index ↔ other'.index = slot'.index :=
  ⟨index_eq (h.sound hs) ht ho, index_eq hs ht.symm ho.symm⟩

/-! ## Views of twins -/

section
variable {β : Type} {found found' : Option Slot}

theorem isSome_eq (h : Option.Rel (Twin reg reg') found found') : found.isSome = found'.isSome := by
  cases h <;> rfl

theorem any_eq (h : Option.Rel (Twin reg reg') found found') (holds : Family → Bool) :
    (found.any fun slot => holds slot.family) = found'.any fun slot => holds slot.family := by
  cases h with
  | none => rfl
  | some ht => exact congrArg holds ht.family

theorem getD_eq (h : Option.Rel (Twin reg reg') found found') (view : Family → β) (default : β) :
    (found.map fun slot => view slot.family).getD default =
      (found'.map fun slot => view slot.family).getD default := by
  cases h with
  | none => rfl
  | some ht => exact congrArg view ht.family

theorem match_eq (view : Family → β) (default : β) : Option.Rel (Twin reg reg') found found' →
    (match found with
      | some slot => view slot.family
      | none => default) =
    match found' with
      | some slot => view slot.family
      | none => default := by
  intro h
  cases h with
  | none => rfl
  | some ht => exact congrArg view ht.family

end

/-! ## Writing twins back -/

theorem put (ht : Twin reg reg' slot slot') (h : reg.Alike reg') (g : Family) :
    (reg.put slot.index g).Alike (reg'.put slot'.index g) where
  limits := h.limits
  families := ((perm_set ht.here g).trans ((ht.rest h).cons g)).trans (perm_set ht.there g).symm

theorem collect (ht : Twin reg reg' slot slot') (h : reg.Alike reg') :
    (reg.collect slot.index).Alike (reg'.collect slot'.index) where
  limits := h.limits
  families :=
    ((perm_swapRemove ht.here).trans (ht.rest h)).trans (perm_swapRemove ht.there).symm

theorem settle (ht : Twin reg reg' slot slot') (h : reg.Alike reg') (g : Family) :
    Step.Alike Eq (reg.settle slot.index g) (reg'.settle slot'.index g) := by
  have hcollect := ht.collect h
  unfold Registry.settle
  split
  · refine ⟨rfl, hcollect, ?_, rfl⟩
    exact congrArg (fun n => [Notice.familyCollected g.root n]) hcollect.familyCount
  · exact ⟨rfl, ht.put h g, rfl, rfl⟩

theorem record (ht : Twin reg reg' slot slot') (h : reg.Alike reg') (item : Item)
    (taken : Except Refusal Family) :
    Step.Alike Eq (reg.record slot item taken) (reg'.record slot' item taken) := by
  unfold Registry.record
  rw [ht.family]
  cases taken with
  | ok g => exact ⟨rfl, ht.put h g, rfl, rfl⟩
  | error cause => cases cause <;> exact ⟨rfl, h, rfl, rfl⟩

end Slot.Twin

theorem Registry.Alike.refuse (h : reg.Alike reg') (cause : Refusal) (log : List Notice) :
    Step.Alike Eq (reg.refuse cause log) (reg'.refuse cause log) :=
  ⟨rfl, h, rfl, rfl⟩

theorem Registry.Alike.ask {α : Type} {same : α → α → Prop} {answer answer' : α}
    (h : reg.Alike reg') (ha : same answer answer') :
    Step.Alike same (reg.ask answer) (reg'.ask answer') :=
  ⟨ha, h, rfl, rfl⟩

theorem Step.Alike.reply {α β : Type} {same : α → α → Prop} {step step' : Step α}
    (h : Step.Alike same step step') (answer : β) :
    Step.Alike Eq { step with answer := answer } { step' with answer := answer } :=
  ⟨rfl, h.registry, h.log, h.woken⟩

/-! ## Calls that change the table -/

namespace Registry.Alike

theorem enrollAt (h : reg.Alike reg') (hs : SoundTable allocates reg.families)
    (ht : Slot.Twin reg reg' slot slot') (pid : Pid) :
    Step.Alike Eq (reg.enrollAt allocates slot pid) (reg'.enrollAt allocates slot' pid) := by
  have helsewhere : ((reg.slotOfMember? pid).any fun other => other.index != slot.index) =
      (reg'.slotOfMember? pid).any fun other => other.index != slot'.index := by
    have hm := h.slotOfMember? hs pid
    generalize reg.slotOfMember? pid = found, reg'.slotOfMember? pid = found' at hm
    cases hm with
    | none => rfl
    | some ho => simp [bne, Bool.beq_eq_decide_eq, ht.index_eq_iff hs h ho]
  unfold Registry.enrollAt
  rw [helsewhere, ht.family]
  split
  · exact h.refuse _ _
  · exact ht.record h _ _

theorem found (h : reg.Alike reg') (root : Pid) (origin : FileId) (policy : Policy) :
    Step.Alike Eq (reg.found allocates root origin policy)
      (reg'.found allocates root origin policy) := by
  unfold Registry.found
  rw [h.families.any_eq, h.familyCount, h.limits]
  split
  · exact h.refuse _ _
  split
  · exact h.refuse _ _
  split
  · exact h.refuse _ _
  split
  · exact h.refuse _ _
  rename_i f _
  have hadded : Alike ⟨reg'.limits, reg.families ++ [f]⟩ ⟨reg'.limits, reg'.families ++ [f]⟩ :=
    ⟨rfl, h.families.append_right [f]⟩
  refine ⟨rfl, hadded, ?_, rfl⟩
  exact congrArg (fun n => [Notice.familyFounded root origin policy n]) hadded.familyCount

theorem enroll (h : reg.Alike reg') (hs : SoundTable allocates reg.families) (child anchor : Pid) :
    Step.Alike Eq (reg.enroll allocates child anchor) (reg'.enroll allocates child anchor) := by
  have hanchor := h.slotOfAnchor? hs anchor
  unfold Registry.enroll
  split
  · exact h.refuse _ _
  generalize reg.slotOfAnchor? anchor = found, reg'.slotOfAnchor? anchor = found' at hanchor
  cases hanchor with
  | none => exact h.refuse _ _
  | some ht => exact h.enrollAt hs ht child

theorem adopt (h : reg.Alike reg') (hs : SoundTable allocates reg.families) (pid : Pid)
    (file : FileId) :
    Step.Alike Eq (reg.adopt allocates pid file) (reg'.adopt allocates pid file) := by
  have hfile := h.slotOfFile? hs file
  unfold Registry.adopt
  split
  · exact h.refuse _ _
  generalize reg.slotOfFile? file = found, reg'.slotOfFile? file = found' at hfile
  cases hfile with
  | none => exact h.refuse _ _
  | some ht => exact h.enrollAt hs ht pid

theorem claimAt (h : reg.Alike reg') (ht : Slot.Twin reg reg' slot slot') (file : FileId) :
    Step.Alike Eq (reg.claimAt allocates slot file) (reg'.claimAt allocates slot' file) := by
  unfold Registry.claimAt
  rw [ht.family]
  exact ht.record h _ _

theorem reclaim (h : reg.Alike reg') (hs : SoundTable allocates reg.families)
    (ht : Slot.Twin reg reg' slot slot') (ho : Slot.Twin reg reg' other other')
    (hne : other.index ≠ slot.index) (file : FileId) :
    Step.Alike Eq (reg.reclaim allocates slot other file)
      (reg'.reclaim allocates slot' other' file) := by
  have hne' : other'.index ≠ slot'.index := mt (ht.index_eq_iff hs h ho).2 hne
  have hfreed := ho.settle h (other.family.disown file)
  have hclaimant : Slot.Twin (reg.settle other.index (other.family.disown file)).registry
      (reg'.settle other'.index (other.family.disown file)).registry ⟨_, slot.family⟩
      ⟨_, slot'.family⟩ :=
    ⟨getElem?_settle ho.here ht.here hne.symm, getElem?_settle ho.there ht.there hne'.symm,
      ht.family⟩
  have hgranted : Step.Alike Eq (Registry.claimAt allocates _ _ file)
      (Registry.claimAt allocates _ _ file) := hfreed.registry.claimAt hclaimant file
  unfold Registry.reclaim
  rw [← ho.family]
  refine ⟨hgranted.answer, hgranted.registry, ?_, rfl⟩
  exact congrArg₂ (fun freed granted => .fileReclaimed file other.family.root :: (freed ++ granted))
    hfreed.log hgranted.log

theorem claim (h : reg.Alike reg') (hs : SoundTable allocates reg.families) (file : FileId)
    (owner : Pid) :
    Step.Alike Eq (reg.claim allocates file owner) (reg'.claim allocates file owner) := by
  have hanchor := h.slotOfAnchor? hs owner
  have hfile := h.slotOfFile? hs file
  unfold Registry.claim
  split
  · exact h.refuse _ _
  generalize reg.slotOfAnchor? owner = found, reg'.slotOfAnchor? owner = found' at hanchor
  generalize reg.slotOfFile? file = held, reg'.slotOfFile? file = held' at hfile
  cases hanchor with
  | none => exact h.refuse _ _
  | some ht =>
    cases hfile with
    | none => exact h.claimAt ht file
    | @some holder holder' ho =>
      simp only [← ht.index_eq_iff hs h ho, ← ho.family]
      split
      · exact h.claimAt ht file
      · rename_i hne
        split
        · exact h.reclaim hs ht ho hne file
        · exact h.refuse _ _

theorem dismiss (h : reg.Alike reg') (hs : SoundTable allocates reg.families) (pid : Pid) :
    Step.Alike Eq (reg.dismiss pid) (reg'.dismiss pid) := by
  have hm := h.slotOfMember? hs pid
  unfold Registry.dismiss
  split
  · exact ⟨rfl, h, rfl, rfl⟩
  generalize reg.slotOfMember? pid = found, reg'.slotOfMember? pid = found' at hm
  cases hm with
  | none => exact ⟨rfl, h, rfl, rfl⟩
  | some ht =>
    dsimp only
    rw [← ht.family]
    exact (ht.settle h _).reply true

theorem disown (h : reg.Alike reg') (hs : SoundTable allocates reg.families) (file : FileId) :
    Step.Alike Eq (reg.disown file) (reg'.disown file) := by
  have hfile := h.slotOfFile? hs file
  unfold Registry.disown
  split
  · exact ⟨rfl, h, rfl, rfl⟩
  generalize reg.slotOfFile? file = found, reg'.slotOfFile? file = found' at hfile
  cases hfile with
  | none => exact ⟨rfl, h, rfl, rfl⟩
  | some ht =>
    dsimp only
    rw [← ht.family]
    exact (ht.settle h _).reply true

theorem fillMembers (h : reg.Alike reg') (hs : SoundTable allocates reg.families) (root : Pid)
    (buffer : List Pid) : reg.fillMembers root buffer = reg'.fillMembers root buffer :=
  Slot.Twin.match_eq (fun f => f.members.fill Pid.invalid buffer)
    (0, List.replicate buffer.length .invalid) (h.slotOfRoot? hs root)

theorem fillFiles (h : reg.Alike reg') (hs : SoundTable allocates reg.families) (root : Pid)
    (buffer : List FileId) : reg.fillFiles root buffer = reg'.fillFiles root buffer :=
  Slot.Twin.match_eq (fun f => f.files.fill FileId.invalid buffer)
    (0, List.replicate buffer.length .invalid) (h.slotOfRoot? hs root)

theorem isBusyRoot (h : reg.Alike reg') (hs : SoundTable allocates reg.families) (pid : Pid) :
    reg.isBusyRoot pid = reg'.isBusyRoot pid :=
  Slot.Twin.match_eq (fun f => f.isLive && 1 < f.members.count) false (h.slotOfRoot? hs pid)

theorem leave (h : reg.Alike reg') (hs : SoundTable allocates reg.families) (pid : Pid) :
    Step.Alike Eq (reg.leave pid) (reg'.leave pid) := by
  have hgone := h.dismiss hs pid
  unfold Registry.leave
  rw [h.isBusyRoot hs]
  split
  · exact ⟨rfl, h, rfl, rfl⟩
  · exact ⟨congrArg Departure.settled hgone.answer, hgone.registry, hgone.log, hgone.woken⟩

theorem reset (h : reg.Alike reg') : Step.Alike Eq reg.reset reg'.reset :=
  ⟨rfl, ⟨h.limits, .nil⟩, rfl, rfl⟩

end Registry.Alike

/-! ## All calls -/

/-- The same answer, but that summaries may come in another order. -/
def Call.SameAnswer : (call : Call) → call.Answer → call.Answer → Prop
  | .summaries => List.Perm
  | _ => Eq

namespace Registry

open Slot.Twin

theorem Alike.exec (h : reg.Alike reg') (hs : SoundTable allocates reg.families) (call : Call) :
    Step.Alike call.SameAnswer (reg.exec allocates call) (reg'.exec allocates call) := by
  cases call with
  | found root origin policy => exact h.found root origin policy
  | enroll child anchor => exact h.enroll hs child anchor
  | claim file owner => exact h.claim hs file owner
  | adopt pid file => exact h.adopt hs pid file
  | dismiss pid => exact h.dismiss hs pid
  | disown file => exact h.disown hs file
  | leave pid => exact h.leave hs pid
  | reset => exact h.reset
  | tracks pid => exact h.ask (congrArg _ (isSome_eq (h.slotOfMember? hs pid)))
  | related first second =>
    exact h.ask (congrArg _ (any_eq (h.slotOfMember? hs first) fun f => f.members.contains second))
  | rootOf pid =>
    refine h.ask (show reg.rootOf pid = reg'.rootOf pid from ?_)
    unfold Registry.rootOf
    rw [getD_eq (h.slotOfMember? hs pid) Family.root]
  | rootOfFile file =>
    refine h.ask (show reg.rootOfFile file = reg'.rootOfFile file from ?_)
    unfold Registry.rootOfFile
    rw [getD_eq (h.slotOfFile? hs file) Family.root]
  | owns pid file =>
    exact h.ask (congrArg _ (any_eq (h.slotOfFile? hs file) fun f => f.members.contains pid))
  | hasRoomForFile pid =>
    exact h.ask (congrArg _ (any_eq (h.slotOfMember? hs pid) Family.hasRoomForFile))
  | wouldWait pid => exact h.ask (h.isBusyRoot hs pid)
  | memberCount root =>
    exact h.ask (getD_eq (h.slotOfRoot? hs root) (fun f => f.members.count) 0)
  | familyCount => exact h.ask h.familyCount
  | members root =>
    exact h.ask (getD_eq (h.slotOfRoot? hs root) (fun f => f.members.items) [])
  | files root =>
    exact h.ask (getD_eq (h.slotOfRoot? hs root) (fun f => f.files.items) [])
  | fillMembers root buffer => exact h.ask (h.fillMembers hs root buffer)
  | fillFiles root buffer => exact h.ask (h.fillFiles hs root buffer)
  | summaries => exact h.ask (h.families.map _)

theorem Alike.execAll (h : reg.Alike reg') (hs : SoundTable allocates reg.families)
    (calls : List Call) : (reg.execAll allocates calls).Alike (reg'.execAll allocates calls) := by
  induction calls generalizing reg reg' with
  | nil => exact h
  | cons call calls ih => exact ih (h.exec hs call).registry (sound_exec hs call)

/-- Two sound tables with the same families in different orders cannot be told apart: every call of
every list of calls is answered alike, with the same notices, and leaves the same families. -/
theorem order_unobservable (hs : SoundTable allocates reg.families)
    (hlimits : reg.limits = reg'.limits) (hperm : reg.families.Perm reg'.families)
    (calls : List Call) (call : Call) :
    let step := (reg.execAll allocates calls).exec allocates call
    let step' := (reg'.execAll allocates calls).exec allocates call
    call.SameAnswer step.answer step'.answer ∧ step.log = step'.log ∧ step.woken = step'.woken ∧
      step.registry.families.Perm step'.registry.families := by
  intro step step'
  have hrun : (reg.execAll allocates calls).Alike (reg'.execAll allocates calls) :=
    Alike.execAll ⟨hlimits, hperm⟩ hs calls
  have hlast := hrun.exec (sound_execAll hs calls) call
  exact ⟨hlast.answer, hlast.log, hlast.woken, hlast.registry.families⟩

/-- Three families that were founded in two orders. File 7 goes from the first slot to the last one
here, and from the last slot to the second one there, and the slots that are left differ again. -/
theorem order_unobservable_reclaimed :
    let reg := (empty {}).execAll (fun _ => true)
      [.found ⟨10⟩ .invalid .protectDroppedFiles, .claim ⟨7⟩ ⟨10⟩, .dismiss ⟨10⟩,
        .found ⟨20⟩ .invalid .noRestriction, .found ⟨30⟩ .invalid .noRestriction]
    let reg' := (empty {}).execAll (fun _ => true)
      [.found ⟨20⟩ .invalid .noRestriction, .found ⟨30⟩ .invalid .noRestriction,
        .found ⟨10⟩ .invalid .protectDroppedFiles, .claim ⟨7⟩ ⟨10⟩, .dismiss ⟨10⟩]
    let after := (reg.claim (fun _ => true) ⟨7⟩ ⟨30⟩).registry
    let after' := (reg'.claim (fun _ => true) ⟨7⟩ ⟨30⟩).registry
    SoundTable (fun _ => true) reg.families ∧ reg.limits = reg'.limits ∧
      reg.families.Perm reg'.families ∧ after.families.map Family.root = [⟨30⟩, ⟨20⟩] ∧
      after'.families.map Family.root = [⟨20⟩, ⟨30⟩] ∧ after.summaries.Perm after'.summaries := by
  intro reg reg' after after'
  have h : Reachable (fun _ => true) {} reg := Reachable.execAll _ .empty
  have hlimits : reg.limits = reg'.limits := by decide
  have hperm : reg.families.Perm reg'.families := by decide
  have hsame := order_unobservable h.sound hlimits hperm [.claim ⟨7⟩ ⟨30⟩] .summaries
  exact ⟨h.sound, hlimits, hperm, by decide, by decide, hsame.1⟩

end Registry

end Containment
