import Containment.Access.FileGuard
import Containment.Machine
import Containment.Proofs.Reclaim
import Containment.Proofs.Scripts

/-!
# What the file guard lets through

A process of a family may create a file only if its family owns the file from then on, and it may
write or delete a file only if its family owns it already (`allowed_is_owned`). A process claims a
new file in its own name, and that name may stand for a family that it has left. Such a family has
lost its root, so the claim is refused and the file is not created.
-/

namespace Containment

variable {host : Host} {allocates : Allocator} {limits : Limits} {reg : Registry} {slot : Slot}
variable {pid owner root : Pid} {file : FileId} {cause : Refusal}

/-! ## Claims of members -/

theorem Family.claim_error {f : Family} (hs : f.Sound allocates)
    (he : f.claim allocates file = .error cause) :
    FileOpen.deniesCreation cause = true ∨
      cause = .alreadyExists ∧ f.isLive = true ∧ file ∈ f.files.items := by
  unfold claim at he
  split at he
  · cases he
    exact .inl rfl
  rename_i hlive
  rw [BoundedSet.insert_eq hs.files.allocated] at he
  split at he
  · rename_i hfile
    cases he
    exact .inr ⟨rfl, by simpa using hlive, hfile⟩
  · split at he
    · cases he
      exact .inl rfl
    · cases he

namespace Registry

theorem exists_slotOfAnchor? (hm : HasMember reg.families root pid) :
    ∃ slot, reg.slotOfAnchor? pid = some slot := by
  obtain ⟨f, hf, -, hp⟩ := hm
  obtain ⟨slot, hs⟩ := Slot.isSome_find? (p := fun g => g.members.contains pid) hf
    (BoundedSet.contains_iff.2 hp)
  unfold slotOfAnchor?
  cases reg.slotOfRoot? pid with
  | none => exact ⟨slot, hs⟩
  | some other => exact ⟨other, rfl⟩

theorem mem_of_slotOfAnchor? (hs : reg.slotOfAnchor? pid = some slot)
    (hlive : slot.family.isLive = true) : pid ∈ slot.family.members.items := by
  rcases Option.or_eq_some_iff.1 hs with hs | ⟨-, hs⟩
  · rw [Family.isLive_iff, (of_slotOfRoot? hs).2] at hlive
    exact hlive
  · exact (of_slotOfMember? hs).2

theorem answer_claim (allocates : Allocator) (hfile : file.isValid = true)
    (howner : owner.isValid = true) (hs : reg.slotOfAnchor? owner = some slot) :
    (reg.claim allocates file owner).answer = .error .forbidden ∨
      (reg.claim allocates file owner).answer =
        (slot.family.claim allocates file).map fun _ => () := by
  unfold claim
  rw [hfile, howner, hs, if_neg (by simp)]
  cases reg.slotOfFile? file with
  | none => exact .inr answer_record
  | some holder =>
    dsimp only
    split
    · exact .inr answer_record
    · split
      · exact .inr answer_record
      · exact .inl rfl

theorem registry_claim_held (h : SoundTable allocates reg.families)
    (hs : reg.slotOfAnchor? owner = some slot) (hheld : file ∈ slot.family.files.items)
    (ha : (reg.claim allocates file owner).answer = .error cause) :
    (reg.claim allocates file owner).registry = reg := by
  rcases claim_cases h _ file owner with ⟨_, -, hsame, -⟩ | ⟨slot', hs', hgrant⟩
  · exact hsame
  cases hgrant with
  | granted hok => rw [ha] at hok; cases hok
  | refused _ _ _ same =>
    -- the claimant's own family has the file, so it is taken from nobody
    have hno : reg.frees file owner = false := by
      rw [← Bool.not_eq_true]
      exact fun hfrees => not_mem_of_frees h hs hfrees hheld
    rw [same, freed, hno]
    rfl

theorem familyOwns_claimed (h : SoundTable allocates reg.families)
    (hs : reg.slotOfAnchor? pid = some slot) (hlive : slot.family.isLive = true)
    (ha : (reg.claim allocates file pid).answer = .ok ()) :
    FamilyOwns (reg.claim allocates file pid).registry.families pid file := by
  have hfreed : SoundTable allocates (reg.freed file pid).families :=
    (freed_changes h file pid).sound h
  rcases claim_cases h _ file pid with ⟨_, herror, -⟩ | ⟨slot', hs', hgrant⟩
  · rw [ha] at herror
    cases herror
  rw [hs] at hs'
  cases hs'
  cases hgrant with
  | granted _ turns =>
    have howns : HasFile (reg.claim allocates file pid).registry.families slot.family.root file :=
      (turns.hasFile_claim hfreed).2 (.inl ⟨rfl, rfl⟩)
    refine ⟨slot.family.root, (hasMember_claim h).2 ?_, howns⟩
    exact ⟨_, List.mem_of_getElem? (of_slotOfAnchor? hs), rfl, mem_of_slotOfAnchor? hs hlive⟩
  | refused _ _ herror =>
    rw [ha] at herror
    cases herror

theorem owned_or_denied (h : SoundTable allocates reg.families)
    (hm : HasMember reg.families root pid) (hfile : file.isValid = true) :
    FamilyOwns (reg.claim allocates file pid).registry.families pid file ∨
      ∃ cause, (reg.claim allocates file pid).answer = .error cause ∧
        FileOpen.deniesCreation cause = true := by
  obtain ⟨slot, hs⟩ := exists_slotOfAnchor? hm
  have hslot := List.mem_of_getElem? (of_slotOfAnchor? hs)
  have hpid : pid.isValid = true := by
    obtain ⟨f, hf, -, hp⟩ := hm
    exact (h.sound f hf).valid_of_member hp
  rcases answer_claim allocates hfile hpid hs with hforbidden | hasked
  · exact .inr ⟨_, hforbidden, rfl⟩
  cases ht : slot.family.claim allocates file with
  | ok g =>
    rw [ht] at hasked
    exact .inl (familyOwns_claimed h hs (Family.claim_eq_ok ht).1 hasked)
  | error cause =>
    rw [ht] at hasked
    rcases Family.claim_error (h.sound _ hslot) ht with hdenied | ⟨rfl, hlive, hheld⟩
    · exact .inr ⟨cause, hasked, hdenied⟩
    · rw [registry_claim_held h hs hheld hasked]
      exact .inl ⟨_, ⟨_, hslot, rfl, mem_of_slotOfAnchor? hs hlive⟩, _, hslot, rfl, hheld⟩

end Registry

/-! ## Verdicts -/

open Script

theorem Verdict.saying_ends {verdict : Verdict} {notice : Notice}
    {post : Verdict → Registry → Prop} (h : post verdict reg) :
    Ends host (verdict.saying notice) reg post :=
  .bind (.say (.pure h))

namespace FileOpen

theorem decideNew_ends (h : SoundTable host.allocates reg.families)
    (hm : HasMember reg.families root pid) (hfile : file.isValid = true) :
    Ends host (decideNew pid file) reg fun verdict after =>
      verdict = .allow → after.owns pid file = true := by
  have hsound := Registry.sound_exec h (.claim file pid)
  unfold decideNew
  refine .bind (.ask ?_)
  rcases Registry.owned_or_denied h hm hfile with howns | ⟨cause, ha, hdenied⟩
  · have hafter := hsound.owns_iff.2 howns
    split
    · exact Verdict.saying_ends fun _ => hafter
    · split
      · exact Verdict.saying_ends fun _ => hafter
      · exact Verdict.saying_ends fun _ => hafter
  · have hanswer : (reg.exec host.allocates (.claim file pid)).answer = .error cause := ha
    rw [hanswer]
    dsimp only
    rw [if_pos hdenied]
    exact Verdict.saying_ends nofun

theorem decideWrite_ends {access : FileAccess} :
    Ends host (decideWrite pid file access) reg fun verdict after =>
      after = reg ∧ (verdict = .allow ↔ reg.owns pid file = true) := by
  unfold decideWrite
  refine .bind (.ask ?_)
  split
  · rename_i howns
    exact Verdict.saying_ends ⟨rfl, iff_of_true rfl howns⟩
  · rename_i hno
    exact Verdict.saying_ends ⟨rfl, iff_of_false nofun hno⟩

def Writes (request : FileOpen) : Prop := request.isNew = true ∨ request.access.isWrite = true

/-- What a verdict on the request of a process that is watched means for the files of its family. -/
structure Guards (request : FileOpen) (before : Registry) (verdict : Verdict) (after : Registry) :
    Prop where
  owned : verdict = .allow → request.Writes →
    ∃ file, request.file = some file ∧ file.isValid = true ∧ after.owns request.pid file = true
  unchanged : request.isNew = false → after = before
  exact : request.isNew = false → request.access.isWrite = true → (verdict = .allow ↔
    ∃ file, request.file = some file ∧ FamilyOwns before.families request.pid file)

variable {request : FileOpen}

theorem decideIdentified_ends (h : SoundTable host.allocates reg.families)
    (hm : HasMember reg.families root request.pid) (hf : request.file = some file)
    (hfile : file.isValid = true) :
    Ends host (decideIdentified request file) reg (request.Guards reg) := by
  unfold decideIdentified
  split
  · rename_i hnew
    refine (decideNew_ends h hm hfile).mono fun verdict after howns => ?_
    refine ⟨fun ha _ => ⟨file, hf, hfile, howns ha⟩, ?_, ?_⟩
    · simp [hnew]
    · simp [hnew]
  rename_i hold
  split
  · refine decideWrite_ends.mono fun verdict after hends => ?_
    obtain ⟨rfl, hallowed⟩ := hends
    rw [h.owns_iff] at hallowed
    refine ⟨fun ha _ => ⟨file, hf, hfile, h.owns_iff.2 (hallowed.1 ha)⟩, fun _ => rfl, ?_⟩
    intro _ _
    rw [hallowed, hf]
    simp
  · rename_i hread
    refine .pure ⟨fun _ hw => ?_, fun _ => rfl, fun _ hw => absurd hw hread⟩
    exact absurd hw (not_or.2 ⟨hold, hread⟩)

theorem decideUnidentified_ends (h : SoundTable host.allocates reg.families)
    (hno : ∀ file, request.file = some file → file.isValid = false) :
    Ends host (decideUnidentified request) reg (request.Guards reg) := by
  unfold decideUnidentified
  split
  · refine Verdict.saying_ends ⟨nofun, fun _ => rfl, fun _ _ => iff_of_false nofun ?_⟩
    rintro ⟨file, hf, howns⟩
    have hbad := h.valid_of_familyOwns howns
    rw [hno file hf] at hbad
    cases hbad
  · rename_i hread
    rw [Bool.or_eq_true] at hread
    exact .pure ⟨fun _ hw => absurd hw hread, fun _ => rfl,
      fun _ hw => absurd (.inr hw) hread⟩

theorem verdict_ends (h : SoundTable host.allocates reg.families)
    (hm : HasMember reg.families root request.pid) (hd : request.isDirectory = false) :
    Ends host request.verdict reg (request.Guards reg) := by
  have htracks : (reg.exec host.allocates (.tracks request.pid)).answer = true :=
    h.tracks_iff.2 ⟨root, hm⟩
  unfold verdict
  rw [if_neg (by simp [hd])]
  refine .bind (.ask ?_)
  rw [htracks, if_neg (by simp)]
  split
  · rename_i file hf
    obtain ⟨hf, hfile⟩ := Option.filter_eq_some_iff.1 hf
    exact decideIdentified_ends h hm hf hfile
  · rename_i hnone
    refine decideUnidentified_ends h fun file hf => ?_
    rw [hf, Option.filter_some] at hnone
    simpa using hnone

end FileOpen

/-! ## Deletions -/

theorem FileId.decideDelete_ends (h : SoundTable host.allocates reg.families)
    (hm : HasMember reg.families root pid) (file : Option FileId) :
    Ends host (FileId.decideDelete pid file) reg fun verdict after =>
      after = reg ∧
        (verdict = .allow ↔
          ∃ id, file = some id ∧ id.isValid = true ∧ FamilyOwns reg.families pid id) := by
  have htracks : (reg.exec host.allocates (.tracks pid)).answer = true :=
    h.tracks_iff.2 ⟨root, hm⟩
  unfold FileId.decideDelete
  refine .bind (.ask ?_)
  rw [htracks, if_neg (by simp)]
  cases file with
  | none => exact Verdict.saying_ends ⟨rfl, iff_of_false nofun (by simp)⟩
  | some id =>
    refine .bind (.ask ?_)
    split
    · rename_i hallowed
      have howns := h.owns_iff.1 hallowed
      refine Verdict.saying_ends ⟨rfl, iff_of_true rfl ?_⟩
      exact ⟨id, rfl, h.valid_of_familyOwns howns, howns⟩
    · rename_i hno
      refine Verdict.saying_ends ⟨rfl, iff_of_false nofun ?_⟩
      rintro ⟨_, hid, -, howns⟩
      cases hid
      exact hno (h.owns_iff.2 howns)

/-- Of a process that is in a family, every request comes to a verdict. Where a file is created or
written, the guard lets only a valid file pass that the family owns then. It asks the registry for
ownership of new files only, and it grants writing and deleting exactly for the family's own. -/
theorem allowed_is_owned (h : Registry.Reachable host.allocates limits reg)
    (ht : reg.tracks pid = true) :
    (∀ request : FileOpen, request.pid = pid → request.isDirectory = false →
      Ends host request.verdict reg (request.Guards reg)) ∧
    ∀ file, Ends host (FileId.decideDelete pid file) reg fun verdict after =>
      after = reg ∧
        (verdict = .allow ↔
          ∃ id, file = some id ∧ id.isValid = true ∧ FamilyOwns reg.families pid id) := by
  have hs := h.sound
  obtain ⟨root, hm⟩ := hs.tracks_iff.1 ht
  constructor
  · rintro request rfl hd
    exact FileOpen.verdict_ends hs hm hd
  · exact FileId.decideDelete_ends hs hm

/-- 10 has left the family that protects file 7, and is now in the family of 20. -/
def abandoned : Registry :=
  (Registry.empty {}).execAll Machine.addressable
    [.found ⟨10⟩ .invalid .protectDroppedFiles, .claim ⟨7⟩ ⟨10⟩, .dismiss ⟨10⟩,
      .found ⟨20⟩ .invalid .noRestriction, .enroll ⟨10⟩ ⟨20⟩]

/-- When 20 creates file 7 anew, its family takes the file over. When 10 does, the family that it
has left is asked, so that nobody gets the file. -/
theorem allowed_is_owned_reclaimed :
    let host := ({} : Machine).host
    let request (pid : Pid) : FileOpen := ⟨pid, some ⟨7⟩, true, false, .writeData⟩
    Registry.Reachable host.allocates {} abandoned ∧
      abandoned.tracks ⟨10⟩ = true ∧ abandoned.tracks ⟨20⟩ = true ∧
      Ends host (request ⟨20⟩).verdict abandoned (fun verdict after =>
        verdict = .allow ∧ after.owns ⟨20⟩ ⟨7⟩ = true) ∧
      ((request ⟨10⟩).verdict.run host abandoned).progress = .finished .deny := by
  intro host request
  have h : Registry.Reachable host.allocates {} abandoned := Registry.Reachable.execAll _ .empty
  have ht : abandoned.tracks ⟨20⟩ = true := by decide
  refine ⟨h, by decide, ht, ?_, rfl⟩
  obtain ⟨verdict, hend, hguards⟩ := (allowed_is_owned h ht).1 (request ⟨20⟩) rfl rfl
  have hallow : ((request ⟨20⟩).verdict.run host abandoned).progress = .finished .allow := rfl
  have hverdict : verdict = .allow := Script.Progress.finished.inj (hend.symm.trans hallow)
  refine ⟨verdict, hend, hverdict, ?_⟩
  obtain ⟨file, hfile, -, howns⟩ := hguards.owned hverdict (.inl rfl)
  rw [← Option.some.inj hfile] at howns
  exact howns

end Containment
