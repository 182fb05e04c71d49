import Containment.Proofs.Change
import Containment.Registry.Call
import Mathlib.Logic.Relation

/-!
# What calls change

One statement for each call that changes the table: which change it makes when it succeeds, and that
it leaves the table alone when it is refused. A claim is the exception. It takes the file from a
family without processes first, and is refused only afterwards (`claim_cases`).
-/

namespace Containment.Registry

variable {allocates : Allocator} {reg : Registry} {slot : Slot} {f g : Family} {i : Nat}
variable {pid root child anchor owner : Pid} {file origin : FileId} {policy : Policy}

/-! ## Writing a slot back -/

theorem settle_perm (hi : reg.families[i]? = some f) (g : Family) :
    (reg.settle i g).registry.families.Perm (g.kept ++ reg.families.eraseIdx i) := by
  unfold settle Family.kept
  split
  · exact perm_swapRemove hi
  · exact perm_set hi g

@[simp] theorem limits_settle : (reg.settle i g).registry.limits = reg.limits := by
  unfold settle; split <;> rfl

theorem record_cases (reg : Registry) (slot : Slot) (item : Item) (taken : Except Refusal Family) :
    (∃ g, taken = .ok g ∧ (reg.record slot item taken).answer = .ok () ∧
      (reg.record slot item taken).registry = reg.put slot.index g) ∨
    (∃ cause, taken = .error cause ∧ (reg.record slot item taken).answer = .error cause ∧
      (reg.record slot item taken).registry = reg) := by
  cases taken with
  | ok g => exact .inl ⟨g, rfl, rfl, rfl⟩
  | error cause => cases cause <;> exact .inr ⟨_, rfl, rfl, rfl⟩

theorem answer_record {item : Item} {taken : Except Refusal Family} :
    (reg.record slot item taken).answer = taken.map fun _ => () := by
  cases taken with
  | ok g => rfl
  | error cause => cases cause <;> rfl

theorem fresh_member (h : SoundTable allocates reg.families)
    (hs : ¬ (reg.slotOfMember? pid).any (fun other => other.index != i)) :
    ∀ other ∈ reg.families.eraseIdx i, pid ∉ other.members.items := by
  intro other ho hp
  obtain ⟨j, hne, hj⟩ := List.mem_eraseIdx_iff_getElem?.1 ho
  rw [h.slotOfMember? hj hp] at hs
  simp [hne] at hs

theorem fresh_file (h : SoundTable allocates reg.families)
    (hs : ∀ holder, reg.slotOfFile? file = some holder → holder.index = i) :
    ∀ other ∈ reg.families.eraseIdx i, file ∉ other.files.items := by
  intro other ho hp
  obtain ⟨j, hne, hj⟩ := List.mem_eraseIdx_iff_getElem?.1 ho
  exact hne (hs _ (h.slotOfFile? hj hp))

/-! ## Taking in -/

theorem found_cases (reg : Registry) (root : Pid) (origin : FileId) (policy : Policy) :
    ((reg.found allocates root origin policy).answer = .ok () ∧
      (Change.found root).Turns allocates reg.limits reg.families
        (reg.found allocates root origin policy).registry.families) ∨
    (∃ cause, (reg.found allocates root origin policy).answer = .error cause ∧
      (reg.found allocates root origin policy).registry = reg) := by
  unfold found
  split
  · exact .inr ⟨_, rfl, rfl⟩
  rename_i hv
  split
  · exact .inr ⟨_, rfl, rfl⟩
  rename_i hfresh
  split
  · exact .inr ⟨_, rfl, rfl⟩
  rename_i hroom
  split
  · exact .inr ⟨_, rfl, rfl⟩
  rename_i f hf
  refine .inl ⟨rfl, ?_⟩
  obtain ⟨-, heq⟩ := Family.founded_eq_ok hf
  have hroot : f.root = root := by rw [heq]
  have horigin : f.origin = origin := by rw [heq]
  have hpolicy : f.policy = policy := by rw [heq]
  subst hroot horigin hpolicy
  refine .found (by simpa using hv) (fun g hg => ?_) (Nat.lt_of_not_le hroom) hf
  simp only [List.any_eq_true, Bool.or_eq_true, beq_iff_eq, BoundedSet.contains_iff, not_exists,
    not_and, not_or] at hfresh
  exact hfresh g hg

/-- What comes of a process that is to be let in: a family takes it, or nothing changes. -/
inductive Intake (allocates : Allocator) (reg : Registry) (pid : Pid)
    (step : Step (Except Refusal Unit)) : Prop
  | taken (root : Pid) (answer : step.answer = .ok ())
    (turns : (Change.enroll pid root).Turns allocates reg.limits reg.families
      step.registry.families)
  | refused (cause : Refusal) (answer : step.answer = .error cause) (same : step.registry = reg)
    (known : cause = .alreadyExists → ∃ root, HasMember reg.families root pid)

/-! ## Taking out -/

theorem dismiss_of_member (h : SoundTable allocates reg.families)
    (hm : HasMember reg.families root pid) : (reg.dismiss pid).answer = true ∧
      (Change.dismiss pid).Turns allocates reg.limits reg.families
        (reg.dismiss pid).registry.families := by
  obtain ⟨f, hf, -, hp⟩ := hm
  obtain ⟨i, hi⟩ := List.getElem?_of_mem hf
  unfold dismiss
  rw [(h.sound f hf).valid_of_member hp, h.slotOfMember? hi hp]
  exact ⟨rfl, .dismiss hp (perm_eraseIdx hi) (settle_perm hi _)⟩

theorem dismiss_of_not_member (hm : ∀ root, ¬ HasMember reg.families root pid) :
    (reg.dismiss pid).answer = false ∧ (reg.dismiss pid).registry = reg := by
  have hs : reg.slotOfMember? pid = none :=
    slotOfMember?_eq_none.2 fun f hf hp => hm f.root ⟨f, hf, rfl, hp⟩
  unfold dismiss
  split
  · exact ⟨rfl, rfl⟩
  · rw [hs]
    exact ⟨rfl, rfl⟩

theorem dismiss_cases (h : SoundTable allocates reg.families) (pid : Pid) :
    (Change.dismiss pid).Turns allocates reg.limits reg.families
        (reg.dismiss pid).registry.families ∨
      (reg.dismiss pid).registry = reg ∧ ∀ root, ¬ HasMember reg.families root pid := by
  by_cases hm : ∃ root, HasMember reg.families root pid
  · obtain ⟨root, hm⟩ := hm
    exact .inl (dismiss_of_member h hm).2
  · exact .inr ⟨(dismiss_of_not_member (not_exists.1 hm)).2, not_exists.1 hm⟩

theorem disown_of_file (h : SoundTable allocates reg.families)
    (hm : HasFile reg.families root file) : (reg.disown file).answer = true ∧
      (Change.disown file).Turns allocates reg.limits reg.families
        (reg.disown file).registry.families := by
  obtain ⟨f, hf, -, hp⟩ := hm
  obtain ⟨i, hi⟩ := List.getElem?_of_mem hf
  unfold disown
  rw [(h.sound f hf).valid_of_file hp, h.slotOfFile? hi hp]
  exact ⟨rfl, .disown hp (perm_eraseIdx hi) (settle_perm hi _)⟩

theorem disown_of_not_file (hm : ∀ root, ¬ HasFile reg.families root file) :
    (reg.disown file).answer = false ∧ (reg.disown file).registry = reg := by
  have hs : reg.slotOfFile? file = none :=
    slotOfFile?_eq_none.2 fun f hf hp => hm f.root ⟨f, hf, rfl, hp⟩
  unfold disown
  split
  · exact ⟨rfl, rfl⟩
  · rw [hs]
    exact ⟨rfl, rfl⟩

theorem disown_cases (h : SoundTable allocates reg.families) (file : FileId) :
    (Change.disown file).Turns allocates reg.limits reg.families
        (reg.disown file).registry.families ∨
      (reg.disown file).registry = reg ∧ ∀ root, ¬ HasFile reg.families root file := by
  by_cases hm : ∃ root, HasFile reg.families root file
  · obtain ⟨root, hm⟩ := hm
    exact .inl (disown_of_file h hm).2
  · exact .inr ⟨(disown_of_not_file (not_exists.1 hm)).2, not_exists.1 hm⟩

/-! ## Claims -/

/-- Whether a claim takes `file` from a family without processes before it asks for it. -/
def frees (reg : Registry) (file : FileId) (owner : Pid) : Bool :=
  match reg.slotOfAnchor? owner, reg.slotOfFile? file with
  | some slot, some holder => holder.index != slot.index && holder.family.members.isEmpty
  | _, _ => false

def freed (reg : Registry) (file : FileId) (owner : Pid) : Registry :=
  if reg.frees file owner then (reg.disown file).registry else reg

theorem frees_iff : reg.frees file owner = true ↔
    ∃ slot holder, reg.slotOfAnchor? owner = some slot ∧ reg.slotOfFile? file = some holder ∧
      holder.index ≠ slot.index ∧ holder.family.members.isEmpty = true := by
  unfold frees
  cases reg.slotOfAnchor? owner <;> cases reg.slotOfFile? file <;> simp

theorem not_hasMember_of_frees (h : SoundTable allocates reg.families)
    (hfrees : reg.frees file owner = true) (hf : HasFile reg.families root file) :
    ¬ HasMember reg.families root pid := by
  obtain ⟨-, holder, -, hholder, -, hempty⟩ := frees_iff.1 hfrees
  obtain ⟨hi, hfile⟩ := of_slotOfFile? hholder
  obtain ⟨f, hf, rfl, hx⟩ := hf
  obtain ⟨j, hj⟩ := List.getElem?_of_mem hf
  cases h.slot_of_file hi hj hfile hx
  rw [h.hasMember_root hf]
  exact BoundedSet.isEmpty_iff.1 hempty pid

theorem mem_freed (h : SoundTable allocates reg.families) (hf : f ∈ reg.families)
    (hother : reg.frees file owner = true → file ∉ f.files.items) :
    f ∈ (reg.freed file owner).families := by
  unfold freed
  split
  · rename_i hfrees
    rcases disown_cases h file with turns | ⟨hsame, -⟩
    · exact turns.beside_disown hf (hother hfrees)
    · rw [hsame]
      exact hf
  · exact hf

/-- The claimant is still found when the holder's slot has been filled with the last one. -/
theorem getElem?_settle (hi : reg.families[i]? = some f)
    (hs : reg.families[slot.index]? = some slot.family) (hne : slot.index ≠ i) :
    (reg.settle i g).registry.families[
      if (reg.settle i g).answer && slot.index == (reg.settle i g).registry.familyCount then i
      else slot.index]? = some slot.family := by
  obtain ⟨hlt, -⟩ := List.getElem?_eq_some_iff.1 hi
  unfold settle
  split
  · have := getElem?_swapRemove hlt hs hne
    simpa [collect, familyCount] using this
  · simp only [Bool.false_and, Bool.false_eq_true, if_false, put]
    rw [List.getElem?_set_ne (Ne.symm hne), hs]

/-- What comes of a claim: `base` is the table that the family is asked in, when storage can be had
as `allocates'` tells. -/
inductive Granting (allocates allocates' : Allocator) (base : Registry) (claimant : Family)
    (file : FileId) (step : Step (Except Refusal Unit)) : Prop
  | granted (answer : step.answer = .ok ())
    (turns : (Change.claim file claimant.root).Turns allocates base.limits base.families
      step.registry.families)
  | refused (cause : Refusal) (why : claimant.claim allocates' file = .error cause)
    (answer : step.answer = .error cause) (same : step.registry = base)

theorem claimAt_granting (allocates' : Allocator) (slot : Slot)
    (hi : reg.families[slot.index]? = some slot.family) (hf : slot.family.Sound allocates)
    (hv : file.isValid = true)
    (hfresh : ∀ other ∈ reg.families.eraseIdx slot.index, file ∉ other.files.items) :
    Granting allocates allocates' reg slot.family file (reg.claimAt allocates' slot file) := by
  unfold claimAt
  rcases record_cases reg slot (.file file) (slot.family.claim allocates' file) with
    ⟨g, ht, ha, hr⟩ | ⟨cause, ht, ha, hr⟩
  · refine .granted ha ?_
    rw [hr]
    rcases hf.claim_cases allocates' file with hsame | hfailed
    · exact .claim hv hfresh (hsame.symm.trans ht) (perm_eraseIdx hi) (perm_set hi g)
    · rw [hfailed] at ht
      cases ht
  · exact .refused cause ht ha hr

theorem slotOfFile?_invalid (h : SoundTable allocates reg.families) :
    reg.slotOfFile? .invalid = none :=
  slotOfFile?_eq_none.2 fun f hf => (h.sound f hf).fileIds

theorem slotOfAnchor?_invalid (h : SoundTable allocates reg.families) :
    reg.slotOfAnchor? .invalid = none := by
  have hm : reg.slotOfMember? .invalid = none :=
    slotOfMember?_eq_none.2 fun f hf => (h.sound f hf).pids
  rw [slotOfAnchor?, hm]
  rfl

theorem registry_disown (hv : file.isValid = true) (hs : reg.slotOfFile? file = some slot) :
    (reg.disown file).registry =
      (reg.settle slot.index (slot.family.disown file)).registry := by
  unfold disown
  rw [hv, hs]
  rfl

theorem reclaim_granting {holder : Slot} (h : SoundTable allocates reg.families)
    (allocates' : Allocator) (hv : file.isValid = true)
    (hs : reg.families[slot.index]? = some slot.family)
    (hh : reg.slotOfFile? file = some holder) (hne : holder.index ≠ slot.index) :
    Granting allocates allocates' (reg.disown file).registry slot.family file
      (reg.reclaim allocates' slot holder file) := by
  obtain ⟨hi, hf⟩ := of_slotOfFile? hh
  obtain ⟨-, hturns⟩ := disown_of_file h ⟨_, List.mem_of_getElem? hi, rfl, hf⟩
  have hgone := hturns.not_hasFile h
  rw [registry_disown hv hh] at hgone ⊢
  have hat := getElem?_settle (g := holder.family.disown file) hi hs (Ne.symm hne)
  have hslot := h.sound _ (List.mem_of_getElem? hs)
  have hgrant := claimAt_granting allocates' ⟨_, slot.family⟩ hat hslot hv
    fun other ho hx => hgone _ ⟨other, List.mem_of_mem_eraseIdx ho, rfl, hx⟩
  cases hgrant with
  | granted ha ht => exact .granted ha ht
  | refused cause why ha hr => exact .refused cause why ha hr

theorem claim_of_invalid (h : SoundTable allocates reg.families) (allocates' : Allocator)
    (hv : (!file.isValid || !owner.isValid) = true) :
    reg.claim allocates' file owner = reg.refuse .invalidItem ∧ reg.frees file owner = false := by
  unfold claim frees
  rw [if_pos hv]
  refine ⟨rfl, ?_⟩
  by_cases hf : file = .invalid
  · rw [hf, slotOfFile?_invalid h]
    cases reg.slotOfAnchor? owner <;> rfl
  · have ho : owner = .invalid := by simpa [FileId.isValid, Pid.isValid, hf] using hv
    rw [ho, slotOfAnchor?_invalid h]

theorem claim_cases (h : SoundTable allocates reg.families) (allocates' : Allocator)
    (file : FileId) (owner : Pid) :
    (∃ cause, (reg.claim allocates' file owner).answer = .error cause ∧
      (reg.claim allocates' file owner).registry = reg ∧ reg.frees file owner = false) ∨
    ∃ slot, reg.slotOfAnchor? owner = some slot ∧
      Granting allocates allocates' (reg.freed file owner) slot.family file
        (reg.claim allocates' file owner) := by
  by_cases hv : (!file.isValid || !owner.isValid) = true
  · obtain ⟨hc, hfrees⟩ := claim_of_invalid h allocates' hv
    rw [hc]
    exact .inl ⟨_, rfl, rfl, hfrees⟩
  have hfile : file.isValid = true := by
    simp only [Bool.or_eq_true, not_or, Bool.not_eq_true', Bool.not_eq_false] at hv
    exact hv.1
  unfold claim
  rw [if_neg hv]
  cases hs : reg.slotOfAnchor? owner with
  | none => exact .inl ⟨_, rfl, rfl, by simp [frees, hs]⟩
  | some slot =>
    have hi := of_slotOfAnchor? hs
    -- where nothing is reclaimed, the claimant is asked in the registry as it is
    have direct (hno : reg.frees file owner = false)
        (hfresh : ∀ holder, reg.slotOfFile? file = some holder → holder.index = slot.index) :
        Granting allocates allocates' (reg.freed file owner) slot.family file
          (reg.claimAt allocates' slot file) := by
      rw [freed, hno]
      exact claimAt_granting allocates' slot hi (h.sound _ (List.mem_of_getElem? hi)) hfile
        (fresh_file h hfresh)
    cases hh : reg.slotOfFile? file with
    | none => exact .inr ⟨slot, rfl, direct (by simp [frees, hh]) (by simp [hh])⟩
    | some holder =>
      dsimp only
      by_cases hsame : holder.index = slot.index
      · rw [if_pos hsame]
        exact .inr ⟨slot, rfl, direct (by simp [frees, hs, hh, hsame]) (by simp [hh, hsame])⟩
      · rw [if_neg hsame]
        split
        · rename_i hempty
          have hyes : reg.frees file owner = true := by simp [frees, hs, hh, hsame, hempty]
          rw [freed, hyes]
          exact .inr ⟨slot, rfl, reclaim_granting h allocates' hfile hi hh hsame⟩
        · rename_i hlive
          exact .inl ⟨_, rfl, rfl, by simp [frees, hs, hh, hlive]⟩

end Containment.Registry
