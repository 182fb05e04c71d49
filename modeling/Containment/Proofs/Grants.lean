import Containment.Proofs.Capacity
import Containment.Proofs.Reclaim
import Containment.Proofs.Tenure

/-!
# Granted claims

A claim that is granted moves one file. The family that owner names is live and gets the file, and
if another family had it, that one was there for its files only, loses just this one, and goes when
it was the last. Whatever slots the two families have, and wherever the claimant's family is moved
when the other one goes, no third family is concerned (`granted_claim`).
-/

namespace Containment

variable {allocates allocates' : Allocator} {limits : Limits} {reg : Registry} {slot : Slot}
variable {f g holder : Family} {rest others : List Family} {file : FileId} {owner : Pid}

/-! ## One file more, one file less -/

structure Family.Gains (f : Family) (file : FileId) (g : Family) : Prop where
  root : g.root = f.root
  origin : g.origin = f.origin
  policy : g.policy = f.policy
  members : g.members = f.members
  new : file ∉ f.files.items
  files : ∀ x, x ∈ g.files.items ↔ x = file ∨ x ∈ f.files.items

namespace Family

theorem gains_of_claim (hf : f.Sound allocates) (hv : file.isValid = true)
    (ht : f.claim allocates file = .ok g) : f.Gains file g := by
  obtain ⟨-, -, -, hnew, hfiles⟩ := hf.claim hv ht
  obtain ⟨-, files, -, rfl⟩ := claim_eq_ok ht
  exact ⟨rfl, rfl, rfl, rfl, hnew, hfiles⟩

theorem disown_gains (hf : f.Sound allocates) (hfile : file ∈ f.files.items) :
    (f.disown file).Gains file f := by
  refine ⟨rfl, rfl, rfl, rfl, fun hbad => (hf.mem_disown.1 hbad).1 rfl, fun x => ?_⟩
  rw [hf.mem_disown]
  by_cases hx : x = file
  · simp [hx, hfile]
  · simp [hx]

theorem kept_disown (hempty : f.members.isEmpty = true) (hpolicy : f.policy = .protectDroppedFiles)
    (hfile : file ∈ f.files.items) :
    (f.disown file).kept = if f.files.items = [file] then [] else [f.disown file] := by
  have hspent : (f.disown file).isSpent = true ↔ f.files.items = [file] := by
    simp [isSpent_disown hfile, List.isEmpty_iff.1 hempty, hpolicy]
  unfold kept
  by_cases hlast : f.files.items = [file]
  · rw [if_pos (hspent.2 hlast), if_pos hlast]
  · rw [if_neg fun hs => hlast (hspent.1 hs), if_neg hlast]

end Family

/-! ## The claimant -/

namespace Registry

theorem claimant_mem_freed (h : SoundTable allocates reg.families)
    (hs : reg.slotOfAnchor? owner = some slot) :
    slot.family ∈ (reg.freed file owner).families :=
  mem_freed h (List.mem_of_getElem? (of_slotOfAnchor? hs)) (not_mem_of_frees h hs)

theorem mem_of_anchor_live (hs : reg.slotOfAnchor? owner = some slot)
    (hlive : slot.family.isLive = true) : owner ∈ slot.family.members.items := by
  rcases Option.or_eq_some_iff.1 hs with hroot | ⟨-, hmember⟩
  · obtain ⟨-, hroot⟩ := of_slotOfRoot? hroot
    rw [← hroot]
    exact Family.isLive_iff.1 hlive
  · exact (of_slotOfMember? hmember).2

/-- The claimant is the family that gets the file, in the table from which the file has been taken
already. -/
theorem granted_turns (h : SoundTable allocates reg.families)
    (hok : (reg.claim allocates' file owner).answer = .ok ()) :
    SoundTable allocates (reg.claim allocates' file owner).registry.families ∧
      ∃ f g others, f ∈ reg.families ∧ owner ∈ f.members.items ∧ f.isLive = true ∧
      f.Gains file g ∧ (∀ root, ¬ HasFile (reg.freed file owner).families root file) ∧
      (reg.freed file owner).families.Perm (f :: others) ∧
      (reg.claim allocates' file owner).registry.families.Perm (g :: others) := by
  rcases claim_cases h _ file owner with ⟨_, herror, -⟩ | ⟨slot, hs, hgrant⟩
  · rw [hok] at herror
    cases herror
  have hmem := List.mem_of_getElem? (of_slotOfAnchor? hs)
  have hfreed : slot.family ∈ (reg.freed file owner).families := claimant_mem_freed h hs
  have hbase := (freed_changes h file owner).sound h
  cases hgrant with
  | refused _ _ herror =>
    rw [hok] at herror
    cases herror
  | granted _ turns =>
    have hafter := turns.sound hbase
    have hnone (root : Pid) : ¬ HasFile (reg.freed file owner).families root file :=
      turns.not_hasFile_claim hbase
    generalize hroot : slot.family.root = root at turns
    cases turns with
    | @claim _ _ others f g _ valid fresh taken old new =>
      have hf := old.mem_iff.2 List.mem_cons_self
      obtain rfl : slot.family = f := hbase.eq_of_not_apart hfreed hf fun ha => ha.roots hroot
      obtain ⟨hlive, -⟩ := Family.claim_eq_ok taken
      exact ⟨hafter, _, g, others, hmem, mem_of_anchor_live hs hlive, hlive,
        Family.gains_of_claim (h.sound _ hmem) valid taken, hnone, old, new⟩

theorem perm_beside {fs gs left : List Family} (hfs : fs.Perm (holder :: rest))
    (hgs : gs.Perm (left ++ rest)) (hf : gs.Perm (f :: others)) (hother : f ∉ left) :
    ∃ third, fs.Perm (f :: holder :: third) ∧ others.Perm (left ++ third) := by
  have hmem : f ∈ left ++ rest := hgs.mem_iff.1 (hf.mem_iff.2 List.mem_cons_self)
  have hrest : rest.Perm (f :: rest.erase f) := by
    apply List.perm_cons_erase
    exact (List.mem_append.1 hmem).resolve_left hother
  refine ⟨rest.erase f, hfs.trans ((hrest.cons holder).trans (.swap f holder _)), ?_⟩
  have hboth : (f :: others).Perm (f :: (left ++ rest.erase f)) :=
    calc (f :: others).Perm gs := hf.symm
      List.Perm _ (left ++ rest) := hgs
      List.Perm _ (left ++ f :: rest.erase f) := hrest.append_left left
      List.Perm _ (f :: (left ++ rest.erase f)) := List.perm_middle
  exact hboth.cons_inv

/-- Who is granted a file is a process of a live family. This family has one file more, which
nobody had, or a family without processes which has one file less and is gone when it has no more.
-/
theorem granted_claim (h : Reachable allocates limits reg)
    (hok : (reg.claim allocates' file owner).answer = .ok ()) :
    let after := (reg.claim allocates' file owner).registry
    ∃ f g, owner ∈ f.members.items ∧ f.isLive = true ∧ f.Gains file g ∧
      after.rootOfFile file = f.root ∧ after.rootOf owner = f.root ∧
      ((∀ root, ¬ HasFile reg.families root file) ∧
          (∃ rest, reg.families.Perm (f :: rest) ∧ after.families.Perm (g :: rest)) ∨
        ∃ holder left rest, left.Gains file holder ∧ holder.members.items = [] ∧
          holder.policy = .protectDroppedFiles ∧ reg.families.Perm (f :: holder :: rest) ∧
          (holder.files.items = [file] → after.families.Perm (g :: rest)) ∧
          (holder.files.items ≠ [file] → after.families.Perm (g :: left :: rest))) := by
  intro after
  have hs := h.sound
  obtain ⟨hafter, f, g, others, hf, hp, hlive, hgains, hnone, old, new⟩ := granted_turns hs hok
  have hg : g ∈ after.families := new.mem_iff.2 List.mem_cons_self
  refine ⟨f, g, hp, hlive, hgains, ?_, ?_, ?_⟩
  · exact hafter.rootOfFile ⟨g, hg, hgains.root, (hgains.files file).2 (.inl rfl)⟩
  · exact hafter.rootOf ⟨g, hg, hgains.root, hgains.members ▸ hp⟩
  unfold freed at hnone old
  split at hnone
  · rename_i hfrees
    right
    obtain ⟨-, holder, rest, hfile, hempty, hpolicy, hreg, hbase⟩ :=
      disown_of_frees hs h.present hfrees
    have hholder := hs.sound holder (hreg.mem_iff.2 List.mem_cons_self)
    -- the claimant has a process, and the holder has none
    have hother : f ∉ (holder.disown file).kept := by
      intro hbad
      rw [Family.eq_of_mem_kept hbad] at hp
      exact BoundedSet.isEmpty_iff.1 hempty owner hp
    rw [if_pos hfrees] at old
    obtain ⟨third, hthird, hothers⟩ := perm_beside hreg hbase old hother
    refine ⟨holder, holder.disown file, third, Family.disown_gains hholder hfile,
      List.isEmpty_iff.1 hempty, hpolicy, hthird, fun hlast => ?_, fun hmore => ?_⟩
    · rw [Family.kept_disown hempty hpolicy hfile, if_pos hlast] at hothers
      exact new.trans (hothers.cons g)
    · rw [Family.kept_disown hempty hpolicy hfile, if_neg hmore] at hothers
      exact new.trans (hothers.cons g)
  · rename_i hfrees
    rw [if_neg hfrees] at old
    exact .inl ⟨hnone, others, old, new⟩

/-- 10 loses its only file and goes, and 30 takes over its slot before it gets the file. -/
theorem granted_claim_moved :
    let reg := (empty {}).execAll (fun _ => true)
      [.found ⟨10⟩ .invalid .protectDroppedFiles, .claim ⟨7⟩ ⟨10⟩, .dismiss ⟨10⟩,
        .found ⟨20⟩ .invalid .noRestriction, .found ⟨30⟩ .invalid .noRestriction,
        .enroll ⟨31⟩ ⟨30⟩]
    let after := (reg.claim (fun _ => true) ⟨7⟩ ⟨31⟩).registry
    Reachable (fun _ => true) {} reg ∧
      (reg.claim (fun _ => true) ⟨7⟩ ⟨31⟩).answer = .ok () ∧
      after.families.map Family.root = [⟨30⟩, ⟨20⟩] ∧
      ∃ root, after.rootOfFile ⟨7⟩ = root ∧ after.rootOf ⟨31⟩ = root := by
  intro reg after
  have h : Reachable (fun _ => true) {} reg := Reachable.execAll _ .empty
  have hok : (reg.claim (fun _ => true) ⟨7⟩ ⟨31⟩).answer = .ok () := by decide
  obtain ⟨f, -, -, -, -, hfile, howner, -⟩ := granted_claim h hok
  exact ⟨h, hok, by decide, f.root, hfile, howner⟩

end Registry

end Containment
