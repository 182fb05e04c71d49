import Containment.Proofs.Ownership

/-!
# Tables within their limits

A family keeps the capacities that the limits gave it when it was founded, and only founding adds a
family to the table. So no call leads beyond the limits. Nor does any call leave a family in the
table that nothing keeps there (`bounded_and_kept`).
-/

namespace Containment

variable {allocates : Allocator} {limits : Limits} {f g : Family}

/-! ## Capacities -/

namespace Family

variable {pid root : Pid} {file origin : FileId} {policy : Policy}

structure Sized (limits : Limits) (f : Family) : Prop where
  members : f.members.capacity = limits.maxMembers.toNat
  files : f.files.capacity = limits.maxFiles.toNat

namespace Sized

theorem founded (h : Family.founded allocates root origin policy limits.maxMembers.toNat
    limits.maxFiles.toNat = .ok f) : f.Sized limits := by
  obtain ⟨-, rfl⟩ := founded_eq_ok h
  exact ⟨rfl, rfl⟩

theorem enroll (hf : f.Sized limits) (hs : f.Sound allocates)
    (h : f.enroll allocates pid = .ok g) : g.Sized limits := by
  obtain ⟨-, members, hins, rfl⟩ := enroll_eq_ok h
  obtain ⟨-, hcapacity, -⟩ := hs.members.insert hins
  exact ⟨hcapacity.trans hf.members, hf.files⟩

theorem claim (hf : f.Sized limits) (hs : f.Sound allocates)
    (h : f.claim allocates file = .ok g) : g.Sized limits := by
  obtain ⟨-, files, hins, rfl⟩ := claim_eq_ok h
  obtain ⟨-, hcapacity, -⟩ := hs.files.insert hins
  exact ⟨hf.members, hcapacity.trans hf.files⟩

theorem dismiss (hf : f.Sized limits) : (f.dismiss pid).Sized limits :=
  ⟨BoundedSet.capacity_erase.trans hf.members, hf.files⟩

theorem disown (hf : f.Sized limits) : (f.disown file).Sized limits :=
  ⟨hf.members, BoundedSet.capacity_erase.trans hf.files⟩

end Sized

theorem length_kept (f : Family) : f.kept.length ≤ 1 := by
  unfold kept
  split <;> simp

theorem sized_of_mem_kept (hf : f.Sized limits) (hg : g ∈ f.kept) : g.Sized limits := by
  rw [eq_of_mem_kept hg]
  exact hf

theorem isSpent_eq_false_iff : f.isSpent = false ↔
    f.members.items ≠ [] ∨ f.policy = .protectDroppedFiles ∧ f.files.items ≠ [] := by
  unfold isSpent BoundedSet.isEmpty
  cases f.policy with
  | noRestriction => simp
  | protectDroppedFiles => simpa using imp_iff_not_or

theorem isSpent_iff : f.isSpent = true ↔
    f.members.items = [] ∧ (f.policy = .noRestriction ∨ f.files.items = []) := by
  rw [← Bool.not_eq_false, isSpent_eq_false_iff]
  cases f.policy <;> simp

theorem isSpent_dismiss (hp : pid ∈ f.members.items) : (f.dismiss pid).isSpent = true ↔
    f.members.items = [pid] ∧ (f.policy = .noRestriction ∨ f.files.items = []) := by
  have hitems : (f.dismiss pid).members.items = [] ↔ f.members.items = [pid] := by
    rw [dismiss, BoundedSet.items_erase, List.erase_eq_nil_iff]
    exact or_iff_right (List.ne_nil_of_mem hp)
  rw [isSpent_iff, hitems]
  rfl

theorem isSpent_disown (hx : file ∈ f.files.items) : (f.disown file).isSpent = true ↔
    f.members.items = [] ∧ (f.policy = .noRestriction ∨ f.files.items = [file]) := by
  have hitems : (f.disown file).files.items = [] ↔ f.files.items = [file] := by
    rw [disown, BoundedSet.items_erase, List.erase_eq_nil_iff]
    exact or_iff_right (List.ne_nil_of_mem hx)
  rw [isSpent_iff, hitems]
  rfl

end Family

/-! ## Tables -/

structure WithinLimits (limits : Limits) (families : List Family) : Prop where
  length : families.length ≤ limits.maxFamilies.toNat
  sized : ∀ f ∈ families, f.Sized limits

namespace WithinLimits

variable {before after rest : List Family}

theorem nil : WithinLimits limits [] := ⟨Nat.zero_le _, by simp⟩

theorem replace (left : List Family) (h : WithinLimits limits before)
    (old : before.Perm (f :: rest)) (new : after.Perm (left ++ rest)) (hone : left.length ≤ 1)
    (hsized : ∀ g ∈ left, g.Sized limits) : WithinLimits limits after where
  length := by
    have hold := old.length_eq
    have hnew := new.length_eq
    have := h.length
    rw [List.length_cons] at hold
    rw [List.length_append] at hnew
    omega
  sized g hg := by
    rcases List.mem_append.1 (new.mem_iff.1 hg) with hg | hg
    · exact hsized g hg
    · exact h.sized g (old.mem_iff.2 (List.mem_cons_of_mem _ hg))

end WithinLimits

theorem Change.Turns.withinLimits {change : Change} {before after : List Family}
    (ht : change.Turns allocates limits before after) (hs : SoundTable allocates before)
    (h : WithinLimits limits before) : WithinLimits limits after := by
  cases ht with
  | @found _ f _ _ room founded =>
    refine ⟨?_, fun g hg => ?_⟩
    · rw [List.length_append, List.length_singleton]
      exact room
    · rcases List.mem_append.1 hg with hg | hg
      · exact h.sized g hg
      · rw [List.mem_singleton.1 hg]
        exact .founded founded
  | @enroll _ _ _ f g _ _ _ taken old new =>
    have hf := old.mem_iff.2 List.mem_cons_self
    have hg := (h.sized f hf).enroll (hs.sound f hf) taken
    exact h.replace [g] old new (Nat.le_refl 1) (by simpa using hg)
  | @claim _ _ _ f g _ _ _ taken old new =>
    have hf := old.mem_iff.2 List.mem_cons_self
    have hg := (h.sized f hf).claim (hs.sound f hf) taken
    exact h.replace [g] old new (Nat.le_refl 1) (by simpa using hg)
  | @dismiss _ _ _ f pid _ old new =>
    have hf := h.sized f (old.mem_iff.2 List.mem_cons_self)
    exact h.replace _ old new (Family.length_kept _) fun g => Family.sized_of_mem_kept hf.dismiss
  | @disown _ _ _ f file _ old new =>
    have hf := h.sized f (old.mem_iff.2 List.mem_cons_self)
    exact h.replace _ old new (Family.length_kept _) fun g => Family.sized_of_mem_kept hf.disown
  | reset => exact .nil

namespace Registry

variable {reg : Registry}

theorem Reachable.withinLimits (h : Reachable allocates limits reg) :
    WithinLimits limits reg.families :=
  h.keeps .nil fun ht hs hw => ht.withinLimits hs hw

/-- The table and all its sets keep to their capacities, and every family has a process, or protects
a file. -/
theorem bounded_and_kept (h : Reachable allocates limits reg) :
    reg.familyCount ≤ limits.maxFamilies.toNat ∧
    ∀ f ∈ reg.families,
      f.members.count ≤ limits.maxMembers.toNat ∧ f.files.count ≤ limits.maxFiles.toNat ∧
      f.isSpent = false ∧
      (f.members.items ≠ [] ∨ f.policy = .protectDroppedFiles ∧ f.files.items ≠ []) := by
  have hw := h.withinLimits
  refine ⟨hw.length, fun f hf => ?_⟩
  have hs := h.sound.sound f hf
  have hsized := hw.sized f hf
  have hkept := h.present f hf
  refine ⟨?_, ?_, hkept, Family.isSpent_eq_false_iff.1 hkept⟩
  · rw [← hsized.members]
    exact hs.members.within
  · rw [← hsized.files]
    exact hs.files.within

/-- The limits leave no room for files. Two families are full, a third one has found no slot, and
one that was left by its only process is gone. -/
theorem bounded_and_kept_full :
    let limits : Limits := { maxFamilies := 2, maxMembers := 1, maxFiles := 0 }
    let reg := (empty limits).execAll (fun _ => true)
      [.found ⟨10⟩ .invalid .protectDroppedFiles, .claim ⟨7⟩ ⟨10⟩, .enroll ⟨11⟩ ⟨10⟩,
        .found ⟨20⟩ .invalid .noRestriction, .found ⟨30⟩ .invalid .noRestriction, .dismiss ⟨10⟩,
        .found ⟨40⟩ .invalid .protectDroppedFiles]
    Reachable (fun _ => true) limits reg ∧ reg.families.map Family.root = [⟨20⟩, ⟨40⟩] ∧
      reg.familyCount ≤ limits.maxFamilies.toNat ∧
      ∀ f ∈ reg.families, f.members.count ≤ limits.maxMembers.toNat ∧ f.members.items ≠ [] := by
  intro limits reg
  have h : Reachable (fun _ => true) limits reg := Reachable.execAll _ .empty
  have hall := bounded_and_kept h
  refine ⟨h, by decide, hall.1, fun f hf => ?_⟩
  obtain ⟨hmembers, hfiles, -, hkept⟩ := hall.2 f hf
  refine ⟨hmembers, hkept.resolve_right fun hprotects => hprotects.2 ?_⟩
  exact List.length_eq_zero_iff.1 (Nat.le_zero.1 hfiles)

end Registry

end Containment
