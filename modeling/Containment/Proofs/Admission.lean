import Containment.Proofs.Calls

/-!
# How a family answers who is to be let in

A family is asked for a process by the pid of one of its own or by one of its files. `Admission` has
a case for each answer of the family, in the order in which it looks for a reason to refuse: the
process is in another family, the root is gone, the process is known, there is no room. Each case
says what holds then, and only the last one changes the registry, in the slot of that family.
-/

namespace Containment

variable {allocates : Allocator} {reg : Registry} {slot : Slot} {f g : Family}
variable {pid : Pid} {file : FileId}

structure Family.Admits (f : Family) (pid : Pid) (g : Family) : Prop where
  root : g.root = f.root
  origin : g.origin = f.origin
  policy : g.policy = f.policy
  files : g.files = f.files
  capacity : g.members.capacity = f.members.capacity
  new : pid ∉ f.members.items
  members : ∀ x, x ∈ g.members.items ↔ x = pid ∨ x ∈ f.members.items

namespace Family

theorem admits_of_enroll (hf : f.Sound allocates) (ht : f.enroll allocates pid = .ok g) :
    f.Admits pid g := by
  obtain ⟨-, members, hins, rfl⟩ := enroll_eq_ok ht
  obtain ⟨-, hcapacity, hnew, hmembers⟩ := hf.members.insert hins
  exact ⟨rfl, rfl, rfl, rfl, hcapacity, hnew, hmembers⟩

theorem Admits.isLive (h : f.Admits pid g) (hopen : pid = f.root ∨ f.isLive = true) :
    g.isLive = true := by
  rw [isLive_iff, h.root, h.members]
  rcases hopen with hroot | hlive
  · exact .inl hroot.symm
  · exact .inr (isLive_iff.1 hlive)

theorem enroll_dead (hroot : pid ≠ f.root) (hlive : f.isLive = false) :
    f.enroll allocates pid = .error .treeDead := by
  simp [enroll, hroot, hlive]

theorem enroll_open (hf : f.Sound allocates) (hopen : pid = f.root ∨ f.isLive = true) :
    f.enroll allocates pid =
      if pid ∈ f.members.items then .error .alreadyExists
      else if f.members.capacity ≤ f.members.count then .error .capacityExhausted
      else .ok { f with
        members := { f.members with
          storage := some (BoundedSet.insertAscending pid f.members.items) } } := by
  have hno : (pid != f.root && !f.isLive) = false := by
    rcases hopen with h | h <;> simp [h]
  unfold enroll
  rw [hno, BoundedSet.insert_eq hf.members.allocated]
  by_cases hp : pid ∈ f.members.items
  · rw [if_pos hp, if_pos hp]
    rfl
  · rw [if_neg hp, if_neg hp]
    by_cases hfull : f.members.capacity ≤ f.members.count
    · rw [if_pos hfull, if_pos hfull]
      rfl
    · rw [if_neg hfull, if_neg hfull]
      rfl

end Family

namespace Registry

/-! ## The answer of one family -/

theorem enrollAt_cases (hf : slot.family.Sound allocates) (allocates' : Allocator) (pid : Pid) :
    reg.enrollAt allocates' slot pid = reg.enrollAt allocates slot pid ∨
      slot.family.members.prepare allocates' = .error .uninitialized ∧
        (reg.enrollAt allocates' slot pid).answer = .error .uninitialized ∧
        (reg.enrollAt allocates' slot pid).registry = reg := by
  unfold enrollAt
  split
  · exact .inl rfl
  · rcases hf.enroll_cases allocates' pid with hsame | ⟨hfailed, hrefused⟩
    · exact .inl (by rw [hsame])
    · rw [hrefused]
      exact .inr ⟨hfailed, rfl, rfl⟩

theorem enrollAt_dead (hne : pid ≠ slot.family.root) (hdead : slot.family.isLive = false) :
    (reg.enrollAt allocates slot pid).registry = reg ∧
      (reg.enrollAt allocates slot pid).answer =
        .error (if (reg.slotOfMember? pid).any fun other => other.index != slot.index
          then .forbidden else .treeDead) := by
  unfold enrollAt
  split
  · exact ⟨rfl, rfl⟩
  · rw [Family.enroll_dead hne hdead]
    exact ⟨rfl, rfl⟩

inductive Admission (allocates : Allocator) (reg : Registry) (slot : Slot) (pid : Pid)
    (step : Step (Except Refusal Unit)) : Prop
  | elsewhere (owner : Pid) (other : owner ≠ slot.family.root)
    (held : HasMember reg.families owner pid)
    (answer : step.answer = .error .forbidden) (same : step.registry = reg)
  | dead (only : ∀ root, HasMember reg.families root pid → root = slot.family.root)
    (stranger : pid ≠ slot.family.root) (rootless : slot.family.isLive = false)
    (answer : step.answer = .error .treeDead) (same : step.registry = reg)
  | known (held : pid ∈ slot.family.members.items) (live : slot.family.isLive = true)
    (answer : step.answer = .error .alreadyExists) (same : step.registry = reg)
  | full (free : ∀ root, ¬ HasMember reg.families root pid)
    (opened : pid = slot.family.root ∨ slot.family.isLive = true)
    (answer : step.answer = .error .capacityExhausted) (same : step.registry = reg)
  | taken (joined : Family) (free : ∀ root, ¬ HasMember reg.families root pid)
    (enrolled : slot.family.enroll allocates pid = .ok joined)
    (answer : step.answer = .ok ()) (put : step.registry = reg.put slot.index joined)

theorem enrollAt_admission (h : SoundTable allocates reg.families)
    (hi : reg.families[slot.index]? = some slot.family) :
    Admission allocates reg slot pid (reg.enrollAt allocates slot pid) := by
  have hf := List.mem_of_getElem? hi
  have hs := h.sound _ hf
  unfold enrollAt
  split
  · rename_i hother
    obtain ⟨other, hfound, hne⟩ := (Option.any_eq_true _ _).1 hother
    obtain ⟨hj, hp⟩ := of_slotOfMember? hfound
    refine .elsewhere other.family.root ?_ ⟨_, List.mem_of_getElem? hj, rfl, hp⟩ rfl rfl
    intro hroot
    rw [bne_iff_ne] at hne
    exact hne (congrArg Slot.index (h.slot_of_root hj hi hroot))
  · rename_i hother
    have honly (root : Pid) (hm : HasMember reg.families root pid) : root = slot.family.root := by
      rcases hasMember_cons.1 ((HasMember.perm (perm_eraseIdx hi)).1 hm) with hown | hrest
      · exact hown.1.symm
      · obtain ⟨other, ho, -, hp⟩ := hrest
        exact absurd hp (fresh_member h hother other ho)
    by_cases hopen : pid = slot.family.root ∨ slot.family.isLive = true
    · -- nobody else has `pid`, so what counts is whether the family knows it and has room
      have hfree (hnew : pid ∉ slot.family.members.items) (root : Pid) :
          ¬ HasMember reg.families root pid := by
        intro hm
        rw [honly root hm, h.hasMember_root hf] at hm
        exact hnew hm
      have hanswer := Family.enroll_open hs hopen
      by_cases hp : pid ∈ slot.family.members.items
      · rw [hanswer, if_pos hp]
        refine .known hp ?_ rfl rfl
        rcases hopen with hroot | hlive
        · exact Family.isLive_iff.2 (hroot ▸ hp)
        · exact hlive
      rw [if_neg hp] at hanswer
      by_cases hfull : slot.family.members.capacity ≤ slot.family.members.count
      · rw [hanswer, if_pos hfull]
        exact .full (hfree hp) hopen rfl rfl
      · rw [if_neg hfull] at hanswer
        refine .taken _ (hfree hp) hanswer ?_ ?_
        all_goals rw [hanswer]; rfl
    · obtain ⟨hstranger, hdead⟩ := not_or.1 hopen
      rw [Bool.not_eq_true] at hdead
      rw [Family.enroll_dead hstranger hdead]
      exact .dead honly hstranger hdead rfl rfl

/-- The root of `f` has left it, and `pid` is neither that root nor in another family. -/
structure Bars (reg : Registry) (f : Family) (pid : Pid) : Prop where
  rootless : f.isLive = false
  stranger : pid ≠ f.root
  only : ∀ root, HasMember reg.families root pid → root = f.root

theorem Admission.treeDead_iff {step : Step (Except Refusal Unit)}
    (h : Admission allocates reg slot pid step) :
    step.answer = .error .treeDead ↔ reg.Bars slot.family pid := by
  have hopen (opened : pid = slot.family.root ∨ slot.family.isLive = true) :
      ¬ reg.Bars slot.family pid := by
    intro hbars
    rcases opened with hroot | hlive
    · exact hbars.stranger hroot
    · rw [hbars.rootless] at hlive
      cases hlive
  cases h with
  | elsewhere owner other held answer _ =>
    rw [answer]
    exact iff_of_false nofun fun hbars => other (hbars.only owner held)
  | dead only stranger rootless answer _ =>
    exact iff_of_true answer ⟨rootless, stranger, only⟩
  | known _ live answer _ =>
    rw [answer]
    exact iff_of_false nofun (hopen (.inr live))
  | full _ opened answer _ =>
    rw [answer]
    exact iff_of_false nofun (hopen opened)
  | taken _ _ enrolled answer _ =>
    rw [answer]
    exact iff_of_false nofun (hopen (Family.enroll_eq_ok enrolled).1)

theorem enrollAt_treeDead_iff (h : SoundTable allocates reg.families) (allocates' : Allocator)
    (hi : reg.families[slot.index]? = some slot.family) :
    (reg.enrollAt allocates' slot pid).answer = .error .treeDead ↔ reg.Bars slot.family pid := by
  rcases enrollAt_cases (h.sound _ (List.mem_of_getElem? hi)) allocates' pid with
    hsame | ⟨-, hanswer, -⟩
  · rw [hsame]
    exact (enrollAt_admission h hi).treeDead_iff
  · rw [hanswer]
    refine iff_of_false nofun fun hbars => ?_
    -- a family without its root is never asked for storage
    have hdead : (reg.enrollAt allocates' slot pid).answer = _ :=
      (enrollAt_dead hbars.stranger hbars.rootless).2
    rw [hanswer] at hdead
    split at hdead <;> cases hdead

/-! ## The answer of the registry -/

/-- An attempt is refused at once, when it names no family, or answered by the one it names. That
one may want storage which could be had up to now. -/
inductive Attempt (allocates : Allocator) (reg : Registry) (pid : Pid)
    (step : Step (Except Refusal Unit)) : Prop
  | unnamed (cause : Refusal) (why : cause = .invalidItem ∨ cause = .noParent)
    (answer : step.answer = .error cause) (same : step.registry = reg)
  | named (slot : Slot) (valid : pid.isValid = true)
    (found : reg.families[slot.index]? = some slot.family)
    (admission : Admission allocates reg slot pid step)
  | unstored (answer : step.answer = .error .uninitialized) (same : step.registry = reg)

theorem enrollAt_attempt (h : SoundTable allocates reg.families) (allocates' : Allocator)
    (hv : pid.isValid = true) (hi : reg.families[slot.index]? = some slot.family) :
    Attempt allocates reg pid (reg.enrollAt allocates' slot pid) := by
  have hf := h.sound _ (List.mem_of_getElem? hi)
  rcases enrollAt_cases hf allocates' pid with hsame | ⟨-, hanswer, hregistry⟩
  · rw [hsame]
    exact .named slot hv hi (enrollAt_admission h hi)
  · exact .unstored hanswer hregistry

theorem enroll_attempt (h : SoundTable allocates reg.families) (allocates' : Allocator)
    (child anchor : Pid) : Attempt allocates reg child (reg.enroll allocates' child anchor) := by
  unfold enroll
  split
  · exact .unnamed _ (.inl rfl) rfl rfl
  rename_i hv
  simp only [Bool.or_eq_true, Bool.not_eq_true', not_or, Bool.not_eq_false] at hv
  split
  · exact .unnamed _ (.inr rfl) rfl rfl
  · rename_i slot hs
    exact enrollAt_attempt h allocates' hv.1 (of_slotOfAnchor? hs)

theorem adopt_attempt (h : SoundTable allocates reg.families) (allocates' : Allocator) (pid : Pid)
    (file : FileId) : Attempt allocates reg pid (reg.adopt allocates' pid file) := by
  unfold adopt
  split
  · exact .unnamed _ (.inl rfl) rfl rfl
  rename_i hv
  simp only [Bool.or_eq_true, Bool.not_eq_true', not_or, Bool.not_eq_false] at hv
  split
  · exact .unnamed _ (.inr rfl) rfl rfl
  · rename_i slot hs
    exact enrollAt_attempt h allocates' hv.1 (of_slotOfFile? hs).1

theorem adopt_owned {i : Nat} (h : SoundTable allocates reg.families) (hv : pid.isValid = true)
    (hi : reg.families[i]? = some f) (hx : file ∈ f.files.items) (allocates' : Allocator) :
    reg.adopt allocates' pid file = reg.enrollAt allocates' ⟨i, f⟩ pid := by
  unfold adopt
  rw [hv, (h.sound f (List.mem_of_getElem? hi)).valid_of_file hx, h.slotOfFile? hi hx]
  rfl

theorem adopt_treeDead_iff (h : SoundTable allocates reg.families) (allocates' : Allocator) :
    (reg.adopt allocates' pid file).answer = .error .treeDead ↔
      pid.isValid = true ∧ ∃ f ∈ reg.families, file ∈ f.files.items ∧ reg.Bars f pid := by
  constructor
  · intro ha
    unfold adopt at ha
    split at ha
    · cases ha
    rename_i hv
    simp only [Bool.or_eq_true, Bool.not_eq_true', not_or, Bool.not_eq_false] at hv
    split at ha
    · cases ha
    · rename_i slot hs
      obtain ⟨hi, hx⟩ := of_slotOfFile? hs
      have hbars := (enrollAt_treeDead_iff h allocates' hi).1 ha
      exact ⟨hv.1, slot.family, List.mem_of_getElem? hi, hx, hbars⟩
  · rintro ⟨hv, f, hf, hx, hbars⟩
    obtain ⟨i, hi⟩ := List.getElem?_of_mem hf
    rw [adopt_owned h hv hi hx]
    exact (enrollAt_treeDead_iff h allocates' hi).2 hbars

section
variable {step : Step (Except Refusal Unit)} {cause : Refusal}

theorem Intake.same_of_error (hi : Intake allocates reg pid step)
    (ha : step.answer = .error cause) : step.registry = reg := by
  cases hi with
  | taken root answer turns => rw [ha] at answer; cases answer
  | refused cause answer same known => exact same

namespace Attempt

theorem intake (h : Attempt allocates reg pid step) : Intake allocates reg pid step := by
  cases h with
  | unnamed cause why answer same =>
    refine .refused cause answer same fun hc => ?_
    rcases why with hw | hw <;> cases hc.symm.trans hw
  | named slot valid found admission =>
    cases admission with
    | elsewhere _ _ _ answer same => exact .refused _ answer same nofun
    | dead _ _ _ answer same => exact .refused _ answer same nofun
    | full _ _ answer same => exact .refused _ answer same nofun
    | known held _ answer same =>
      exact .refused _ answer same fun _ => ⟨_, _, List.mem_of_getElem? found, rfl, held⟩
    | taken joined free enrolled answer put =>
      refine .taken slot.family.root answer ?_
      have hfresh : ∀ other ∈ reg.families.eraseIdx slot.index, pid ∉ other.members.items :=
        fun other ho hp => free other.root ⟨other, List.mem_of_mem_eraseIdx ho, rfl, hp⟩
      rw [put]
      exact .enroll valid hfresh enrolled (perm_eraseIdx found) (perm_set found joined)
  | unstored answer same => exact .refused _ answer same nofun

theorem exhausted (h : Attempt allocates reg pid step)
    (ha : step.answer = .error .capacityExhausted) :
    pid.isValid = true ∧ ∀ root, ¬ HasMember reg.families root pid := by
  cases h with
  | unnamed _ why answer _ =>
    rw [ha] at answer
    cases answer
    rcases why with h | h <;> cases h
  | named slot valid _ admission =>
    cases admission with
    | full free _ _ _ => exact ⟨valid, free⟩
    | elsewhere _ _ _ answer _ => rw [ha] at answer; cases answer
    | dead _ _ _ answer _ => rw [ha] at answer; cases answer
    | known _ _ answer _ => rw [ha] at answer; cases answer
    | taken _ _ _ answer _ => rw [ha] at answer; cases answer
  | unstored answer _ => rw [ha] at answer; cases answer

end Attempt

end

theorem enroll_intake (h : SoundTable allocates reg.families) (allocates' : Allocator)
    (child anchor : Pid) : Intake allocates reg child (reg.enroll allocates' child anchor) :=
  (enroll_attempt h allocates' child anchor).intake

theorem adopt_intake (h : SoundTable allocates reg.families) (allocates' : Allocator) (pid : Pid)
    (file : FileId) : Intake allocates reg pid (reg.adopt allocates' pid file) :=
  (adopt_attempt h allocates' pid file).intake

end Registry

end Containment
