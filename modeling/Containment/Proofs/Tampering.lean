import Containment.Access.ProcessGuard
import Containment.Machine
import Containment.Proofs.Ownership
import Containment.Proofs.Scripts

/-!
# What the process guard grants

A process of a family is granted all it asks for when the target or the target's parent is in its
family (`ProcessOpen.Within`), and all but the tamper rights otherwise. The parent counts even when
the target is in another family by now. Tamper rights on a process of another family are granted
exactly then (`untouched_iff`).
-/

namespace Containment

variable {allocates : Allocator} {host : Host} {limits : Limits} {reg : Registry} {own other : Pid}
variable {request : ProcessOpen}

/-! ## Rights taken away -/

namespace ProcessAccess

theorem meets_without (a b : ProcessAccess) : (a.without b).meets b = false := by
  have hnone : a.bits &&& ~~~b.bits &&& b.bits = 0 := by
    rw [BitVec.and_assoc, BitVec.and_comm (~~~b.bits), BitVec.and_not_self]
    exact BitVec.and_zero
  simp [meets, Bits.meets, without, hnone]

theorem without_eq_self {a b : ProcessAccess} (h : a.meets b = false) : a.without b = a := by
  have hnone : a.bits &&& b.bits = 0 := by simpa [meets, Bits.meets] using h
  have hsame : a.bits &&& ~~~b.bits = a.bits := by
    ext i hi
    have hbit : (a.bits &&& b.bits)[i] = false := by simp [hnone]
    rw [BitVec.getElem_and] at hbit
    rw [BitVec.getElem_and, BitVec.getElem_not]
    cases ha : a.bits[i] with
    | false => rfl
    | true =>
      rw [ha, Bool.true_and] at hbit
      rw [hbit]
      rfl
  rw [without, hsame]

end ProcessAccess

/-! ## Decisions -/

open Script

namespace ProcessOpen

def Within (families : List Family) (request : ProcessOpen) : Prop :=
  ∃ root, HasMember families root request.source ∧
    (HasMember families root request.target ∨ HasMember families root request.targetParent)

theorem isWithinFamily_ends (h : SoundTable allocates reg.families) :
    Ends host request.isWithinFamily reg fun within after =>
      after = reg ∧ (within = true ↔ request.Within reg.families) := by
  unfold isWithinFamily
  refine .bind (.ask ?_)
  split
  · rename_i htarget
    obtain ⟨root, ht, hs⟩ := h.related_iff.1 htarget
    exact .pure ⟨rfl, iff_of_true rfl ⟨root, hs, .inl ht⟩⟩
  · rename_i htarget
    refine .ask ⟨rfl, h.related_iff.trans ⟨?_, ?_⟩⟩
    · rintro ⟨root, hp, hs⟩
      exact ⟨root, hs, .inr hp⟩
    · rintro ⟨root, hs, ht | hp⟩
      · exact absurd (h.related_iff.2 ⟨root, ht, hs⟩) htarget
      · exact ⟨root, hp, hs⟩

theorem decision_ends (h : SoundTable allocates reg.families)
    (hm : HasMember reg.families own request.source) :
    Ends host request.decision reg fun decision after => after = reg ∧
      (request.Within reg.families → decision = ⟨.allow, request.access⟩) ∧
      (¬ request.Within reg.families → decision.granted = request.access.without .tamper ∧
        (decision.verdict = .deny ↔ request.access.meets .tamper = true)) := by
  have htracks : (reg.exec host.allocates (.tracks request.source)).answer = true :=
    h.tracks_iff.2 ⟨own, hm⟩
  unfold decision
  refine .bind (.ask ?_)
  rw [htracks, if_neg (by simp)]
  refine .bind ((isWithinFamily_ends h).mono fun within after hwithin => ?_)
  obtain ⟨rfl, hwithin⟩ := hwithin
  split
  · rename_i hyes
    exact .bind (.say (.pure ⟨rfl, fun _ => rfl, fun hno => absurd (hwithin.1 hyes) hno⟩))
  rename_i hno
  rw [hwithin] at hno
  split
  · rename_i hasked
    refine .bind (.say (.pure ⟨rfl, fun hyes => absurd hyes hno, fun _ => ⟨rfl, ?_⟩⟩))
    exact iff_of_true rfl hasked
  · rename_i hasked
    refine .pure ⟨rfl, fun hyes => absurd hyes hno, fun _ => ⟨?_, iff_of_false nofun hasked⟩⟩
    exact (ProcessAccess.without_eq_self (by simpa using hasked)).symm

end ProcessOpen

/-- A process of one family gets no tamper right on a process of another exactly when it has asked
for none or the target's parent is not in its family. -/
theorem untouched_iff (h : Registry.Reachable allocates limits reg)
    (hsource : HasMember reg.families own request.source)
    (htarget : HasMember reg.families other request.target) (hne : own ≠ other) :
    Ends host request.decision reg fun decision after => after = reg ∧
      (decision.granted.meets .tamper = false ↔
        request.access.meets .tamper = false ∨
          ¬ HasMember reg.families own request.targetParent) := by
  have hs := h.sound
  refine (ProcessOpen.decision_ends hs hsource).mono fun decision after hends => ?_
  obtain ⟨hsame, hinside, houtside⟩ := hends
  refine ⟨hsame, ?_⟩
  by_cases hparent : HasMember reg.families own request.targetParent
  · rw [hinside ⟨own, hsource, .inr hparent⟩]
    simp [hparent]
  · -- the target is in one family only, and that is not the one of the source
    have hforeign : ¬ request.Within reg.families := by
      rintro ⟨root, hroot, ht | hp⟩
      · exact hne ((hs.root_of_member hsource hroot).trans (hs.root_of_member ht htarget))
      · exact hparent (hs.root_of_member hroot hsource ▸ hp)
    rw [(houtside hforeign).1]
    exact iff_of_true (ProcessAccess.meets_without _ _) (.inr hparent)

def neighbours : Registry :=
  (Registry.empty {}).execAll Machine.addressable
    [.found ⟨10⟩ .invalid .noRestriction, .found ⟨20⟩ .invalid .noRestriction, .enroll ⟨11⟩ ⟨20⟩]

theorem reachable_neighbours : Registry.Reachable Machine.addressable {} neighbours :=
  Registry.Reachable.execAll _ .empty

theorem hasMember_neighbours : HasMember neighbours.families ⟨10⟩ ⟨10⟩ ∧
    HasMember neighbours.families ⟨20⟩ ⟨11⟩ := by
  constructor
  · exact ⟨_, List.mem_cons_self, rfl, by decide⟩
  · exact ⟨_, List.mem_cons_of_mem _ List.mem_cons_self, rfl, by decide⟩

theorem untouched_iff_foreign :
    let host := ({} : Machine).host
    let request : ProcessOpen := ⟨⟨10⟩, ⟨11⟩, ⟨20⟩, ProcessAccess.vmRead.union .vmWrite⟩
    Registry.Reachable host.allocates {} neighbours ∧
      HasMember neighbours.families ⟨10⟩ request.source ∧
      HasMember neighbours.families ⟨20⟩ request.target ∧
      (request.decision.run host neighbours).progress = .finished ⟨.deny, .vmRead⟩ ∧
      Ends host request.decision neighbours fun decision _ =>
        decision.granted.meets .tamper = false := by
  intro host request
  obtain ⟨hsource, htarget⟩ := hasMember_neighbours
  have hdenied : (request.decision.run host neighbours).progress =
      .finished ⟨.deny, .vmRead⟩ := by
    unfold request
    rfl
  refine ⟨reachable_neighbours, hsource, htarget, hdenied, ?_⟩
  have hends : Ends host request.decision neighbours _ :=
    untouched_iff reachable_neighbours hsource htarget (by decide)
  refine hends.mono fun decision after hfree => hfree.2.2 (.inr fun hparent => ?_)
  have hroot := reachable_neighbours.sound.rootOf hparent
  revert hroot
  decide

/-- 11 is a child of 10, but has gone over to the family of 20. Still 10 may write its memory. -/
theorem not_untouched : ¬ ∀ (host : Host) (limits : Limits) (reg : Registry) (own other : Pid)
    (request : ProcessOpen), Registry.Reachable host.allocates limits reg →
    HasMember reg.families own request.source → HasMember reg.families other request.target →
    own ≠ other → Ends host request.decision reg fun decision _ =>
      decision.granted.meets .tamper = false := by
  intro hall
  obtain ⟨hsource, htarget⟩ := hasMember_neighbours
  obtain ⟨decision, hend, hfree⟩ := hall ({} : Machine).host {} neighbours ⟨10⟩ ⟨20⟩
    ⟨⟨10⟩, ⟨11⟩, ⟨10⟩, .vmWrite⟩ reachable_neighbours hsource htarget (by decide)
  cases hend
  revert hfree
  decide

end Containment
