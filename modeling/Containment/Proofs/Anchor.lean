import Containment.Proofs.Ownership

/-!
# Members and roots as anchors

A call that names a family by one of its processes is to act as if it named it by the root. It does
exactly when no other family is rooted at that process (`by_member_iff`): a root whose family has
stayed behind may be let into a second one, and its pid still names the first.
-/

namespace Containment.Registry

variable {allocates : Allocator} {limits : Limits} {reg : Registry} {slot : Slot} {f : Family}
variable {g : Family} {i j : Nat} {pid anchor : Pid}

/-! ## The slot that is named -/

theorem slotOfAnchor?_root (h : SoundTable allocates reg.families)
    (hi : reg.families[i]? = some f) : reg.slotOfAnchor? f.root = some ⟨i, f⟩ := by
  rw [slotOfAnchor?, h.slotOfRoot? hi]
  rfl

theorem slotOfAnchor?_rootOf (h : SoundTable allocates reg.families)
    (hi : reg.families[i]? = some f) (hp : pid ∈ f.members.items) :
    reg.slotOfAnchor? (reg.rootOf pid) = some ⟨i, f⟩ := by
  have hf := List.mem_of_getElem? hi
  rw [h.rootOf ⟨f, hf, rfl, hp⟩, slotOfAnchor?_root h hi]

theorem slotOfAnchor?_member (h : SoundTable allocates reg.families)
    (hi : reg.families[i]? = some f) (hp : pid ∈ f.members.items)
    (hroot : ∀ g ∈ reg.families, g.root = pid → pid ∈ g.members.items) :
    reg.slotOfAnchor? pid = some ⟨i, f⟩ := by
  rw [slotOfAnchor?]
  cases hs : reg.slotOfRoot? pid with
  | none => rw [Option.none_or, h.slotOfMember? hi hp]
  | some slot =>
    obtain ⟨hj, hr⟩ := of_slotOfRoot? hs
    have hp' := hroot _ (List.mem_of_getElem? hj) hr
    rw [Option.some_or, ← h.slot_of_member hj hi hp' hp]

theorem isValid_rootOf (h : SoundTable allocates reg.families)
    (hi : reg.families[i]? = some f) (hp : pid ∈ f.members.items) :
    (reg.rootOf pid).isValid = true := by
  have hf := List.mem_of_getElem? hi
  rw [h.rootOf ⟨f, hf, rfl, hp⟩]
  exact (h.sound f hf).root

theorem enroll_congr (hv : pid.isValid = true) (hv' : anchor.isValid = true)
    (hs : reg.slotOfAnchor? pid = reg.slotOfAnchor? anchor) (child : Pid) :
    reg.enroll allocates child pid = reg.enroll allocates child anchor := by
  unfold enroll
  rw [hv, hv', hs]

theorem claim_congr (hv : pid.isValid = true) (hv' : anchor.isValid = true)
    (hs : reg.slotOfAnchor? pid = reg.slotOfAnchor? anchor) (file : FileId) :
    reg.claim allocates file pid = reg.claim allocates file anchor := by
  unfold claim
  rw [hv, hv', hs]

/-! ## What tells two slots apart -/

theorem answer_enrollAt_other {other : Slot} (hs : reg.slotOfMember? pid = some other)
    (hne : other.index ≠ slot.index) :
    (reg.enrollAt allocates slot pid).answer = .error .forbidden := by
  unfold enrollAt
  rw [hs, if_pos (by simpa using hne)]
  rfl

theorem answer_enrollAt_own (h : SoundTable allocates reg.families)
    (hi : reg.families[i]? = some f) (hp : pid ∈ f.members.items) :
    (reg.enrollAt allocates ⟨i, f⟩ pid).answer ≠ .error .forbidden := by
  have halloc := (h.sound f (List.mem_of_getElem? hi)).members.allocated
  unfold enrollAt
  rw [h.slotOfMember? hi hp, if_neg (by simp), answer_record]
  unfold Family.enroll
  split
  · simp [Except.map]
  · rw [BoundedSet.insert_eq halloc, if_pos hp]
    simp [Except.map]

theorem enroll_self_of_other_root (h : SoundTable allocates reg.families)
    (hi : reg.families[i]? = some f) (hp : pid ∈ f.members.items)
    (hj : reg.families[j]? = some g) (hr : g.root = pid) (hp' : pid ∉ g.members.items) :
    (reg.enroll allocates pid pid).answer = .error .forbidden ∧
      (reg.enroll allocates pid (reg.rootOf pid)).answer ≠ .error .forbidden := by
  have hv := (h.sound f (List.mem_of_getElem? hi)).valid_of_member hp
  have hne : i ≠ j := by
    intro hij
    subst hij
    rw [hi] at hj
    cases hj
    exact hp' hp
  have hanchor : reg.slotOfAnchor? pid = some ⟨j, g⟩ := hr ▸ slotOfAnchor?_root h hj
  constructor
  · unfold enroll
    rw [hv, hanchor]
    exact answer_enrollAt_other (h.slotOfMember? hi hp) hne
  · unfold enroll
    rw [hv, isValid_rootOf h hi hp, slotOfAnchor?_rootOf h hi hp]
    exact answer_enrollAt_own h hi hp

/-- A process names the family it is in, as the root of that family does, exactly when no family
that it is not in is rooted at it. -/
theorem by_member_iff (h : Reachable allocates limits reg) (ht : reg.tracks pid = true) :
    ((∀ child,
        (reg.enroll allocates child pid).answer =
          (reg.enroll allocates child (reg.rootOf pid)).answer ∧
        (reg.enroll allocates child pid).registry =
          (reg.enroll allocates child (reg.rootOf pid)).registry) ∧
      ∀ file,
        (reg.claim allocates file pid).answer =
          (reg.claim allocates file (reg.rootOf pid)).answer ∧
        (reg.claim allocates file pid).registry =
          (reg.claim allocates file (reg.rootOf pid)).registry) ↔
      ∀ f ∈ reg.families, f.root = pid → pid ∈ f.members.items := by
  have hs := h.sound
  obtain ⟨_, f, hf, rfl, hp⟩ := hs.tracks_iff.1 ht
  obtain ⟨i, hi⟩ := List.getElem?_of_mem hf
  constructor
  · intro hsame g hg hr
    obtain ⟨j, hj⟩ := List.getElem?_of_mem hg
    by_contra hp'
    obtain ⟨hforbidden, hown⟩ := enroll_self_of_other_root hs hi hp hj hr hp'
    exact hown ((hsame.1 pid).1.symm.trans hforbidden)
  · intro hroots
    have hv := (hs.sound f hf).valid_of_member hp
    have hv' := isValid_rootOf hs hi hp
    have hslot : reg.slotOfAnchor? pid = reg.slotOfAnchor? (reg.rootOf pid) := by
      rw [slotOfAnchor?_member hs hi hp hroots, slotOfAnchor?_rootOf hs hi hp]
    refine ⟨fun child => ?_, fun file => ?_⟩
    · rw [enroll_congr hv hv' hslot]
      exact ⟨rfl, rfl⟩
    · rw [claim_congr hv hv' hslot]
      exact ⟨rfl, rfl⟩

/-- The calls after which 10 is the root of a family that protects a file, and is in another. -/
def twofold : List Call :=
  [.found ⟨10⟩ .invalid .protectDroppedFiles, .claim ⟨7⟩ ⟨10⟩, .dismiss ⟨10⟩,
    .found ⟨20⟩ .invalid .noRestriction, .enroll ⟨10⟩ ⟨20⟩, .enroll ⟨21⟩ ⟨20⟩]

theorem by_member_iff_plain :
    let reg := (empty {}).execAll (fun _ => true) twofold
    Reachable (fun _ => true) {} reg ∧ reg.tracks ⟨21⟩ = true ∧
      (∀ f ∈ reg.families, f.root = ⟨21⟩ → ⟨21⟩ ∈ f.members.items) ∧
      ∀ child,
        (reg.enroll (fun _ => true) child ⟨21⟩).answer =
          (reg.enroll (fun _ => true) child (reg.rootOf ⟨21⟩)).answer := by
  intro reg
  have h : Reachable (fun _ => true) {} reg := Reachable.execAll _ .empty
  have ht : reg.tracks ⟨21⟩ = true := by decide
  have hroots : ∀ f ∈ reg.families, f.root = ⟨21⟩ → ⟨21⟩ ∈ f.members.items := by decide
  exact ⟨h, ht, hroots, fun child => (((by_member_iff h ht).2 hroots).1 child).1⟩

/-- As an anchor, 10 names the family that has lost it, and its root names the one that it is in. -/
theorem not_by_member : ¬ ∀ (allocates : Allocator) (limits : Limits) (reg : Registry) (pid : Pid),
    Reachable allocates limits reg → reg.tracks pid = true →
      (∀ child,
        (reg.enroll allocates child pid).answer =
          (reg.enroll allocates child (reg.rootOf pid)).answer ∧
        (reg.enroll allocates child pid).registry =
          (reg.enroll allocates child (reg.rootOf pid)).registry) ∧
      ∀ file,
        (reg.claim allocates file pid).answer =
          (reg.claim allocates file (reg.rootOf pid)).answer ∧
        (reg.claim allocates file pid).registry =
          (reg.claim allocates file (reg.rootOf pid)).registry := by
  intro hall
  have h : Reachable (fun _ => true) {} ((empty {}).execAll (fun _ => true) twofold) :=
    Reachable.execAll _ .empty
  have hbad := ((hall _ _ _ ⟨10⟩ h (by decide)).1 ⟨30⟩).1
  revert hbad
  decide

end Containment.Registry
