import Containment.Proofs.Ownership

/-!
# Refused claims

A claim that is refused leaves the registry as it is, unless `file` was held by a family without
processes other than the claimant's. That family loses the file before the claimant is asked, and it
does not get it back (`refused_claim`).
-/

namespace Containment.Registry

variable {allocates allocates' : Allocator} {limits : Limits} {reg : Registry} {slot : Slot}
variable {file : FileId} {owner root : Pid} {cause : Refusal}

theorem protects_of_isEmpty {f : Family} (hf : f.isSpent = false)
    (he : f.members.isEmpty = true) : f.policy = .protectDroppedFiles := by
  unfold Family.isSpent at hf
  rw [he] at hf
  cases hp : f.policy with
  | noRestriction => simp [hp] at hf
  | protectDroppedFiles => rfl

theorem not_mem_of_frees (h : SoundTable allocates reg.families)
    (hs : reg.slotOfAnchor? owner = some slot) (hf : reg.frees file owner = true) :
    file ∉ slot.family.files.items := by
  obtain ⟨slot', holder, hs', hholder, hne, -⟩ := frees_iff.1 hf
  rw [hs] at hs'
  cases hs'
  obtain ⟨hi, hfile⟩ := of_slotOfFile? hholder
  intro hbad
  exact hne (congrArg Slot.index (h.slot_of_file hi (of_slotOfAnchor? hs) hfile hbad))

theorem disown_of_frees (h : SoundTable allocates reg.families) (hp : Present reg.families)
    (hf : reg.frees file owner = true) :
    (reg.disown file).registry.rootOfFile file = .invalid ∧
      ∃ holder rest, file ∈ holder.files.items ∧ holder.members.isEmpty = true ∧
        holder.policy = .protectDroppedFiles ∧ reg.families.Perm (holder :: rest) ∧
        (reg.disown file).registry.families.Perm ((holder.disown file).kept ++ rest) := by
  obtain ⟨-, holder, -, hholder, -, hempty⟩ := frees_iff.1 hf
  obtain ⟨hi, hfile⟩ := of_slotOfFile? hholder
  have hmem := List.mem_of_getElem? hi
  have hv := (h.sound _ hmem).valid_of_file hfile
  obtain ⟨-, hturns⟩ := disown_of_file h ⟨_, hmem, rfl, hfile⟩
  refine ⟨rootOfFile_eq_invalid (hturns.not_hasFile h), holder.family,
    reg.families.eraseIdx holder.index, hfile, hempty, protects_of_isEmpty (hp _ hmem) hempty,
    perm_eraseIdx hi, ?_⟩
  rw [registry_disown hv hholder]
  exact settle_perm hi _

/-- A refused claim has done nothing, or it has done what giving up `file` does, and nothing else:
the holder is without processes and loses just `file`, and all other families stay as they are. -/
theorem refused_claim (h : Reachable allocates limits reg)
    (hr : (reg.claim allocates' file owner).answer = .error cause) :
    let after := (reg.claim allocates' file owner).registry
    (reg.frees file owner = false → after = reg) ∧
    (reg.frees file owner = true →
      after = (reg.disown file).registry ∧ after.rootOfFile file = .invalid ∧
      ∃ holder rest, file ∈ holder.files.items ∧ holder.members.isEmpty = true ∧
        holder.policy = .protectDroppedFiles ∧ reg.families.Perm (holder :: rest) ∧
        after.families.Perm ((holder.disown file).kept ++ rest)) := by
  intro after
  have hs := h.sound
  rcases claim_cases hs allocates' file owner with ⟨_, -, hsame, hno⟩ | ⟨_, -, hgrant⟩
  · exact ⟨fun _ => hsame, fun hyes => by rw [hno] at hyes; cases hyes⟩
  cases hgrant with
  | granted ha => rw [hr] at ha; cases ha
  | refused _ _ _ hsame =>
    have hafter : after = reg.freed file owner := hsame
    rw [hafter, freed]
    refine ⟨fun hno => by rw [hno]; rfl, fun hyes => ?_⟩
    obtain ⟨hnone, hholder⟩ := disown_of_frees hs h.present hyes
    rw [if_pos hyes]
    exact ⟨rfl, hnone, hholder⟩

/-- The calls after which 20 is a family without its root, and 10 one that protects a file. -/
def leftBehind : List Call :=
  [.found ⟨10⟩ .invalid .protectDroppedFiles, .claim ⟨7⟩ ⟨10⟩, .dismiss ⟨10⟩,
    .found ⟨20⟩ .invalid .noRestriction, .enroll ⟨21⟩ ⟨20⟩, .dismiss ⟨20⟩]

theorem refused_claim_collected :
    let reg := (empty {}).execAll (fun _ => true) leftBehind
    Reachable (fun _ => true) {} reg ∧
      (reg.claim (fun _ => true) ⟨7⟩ ⟨21⟩).answer = .error .treeDead ∧
      reg.frees ⟨7⟩ ⟨21⟩ = true ∧
      (reg.claim (fun _ => true) ⟨7⟩ ⟨21⟩).registry = (reg.disown ⟨7⟩).registry ∧
      (reg.claim (fun _ => true) ⟨7⟩ ⟨21⟩).registry.families.map Family.root = [⟨20⟩] := by
  intro reg
  have h : Reachable (fun _ => true) {} reg := Reachable.execAll _ .empty
  have hr : (reg.claim (fun _ => true) ⟨7⟩ ⟨21⟩).answer = .error .treeDead := by decide
  have hfrees : reg.frees ⟨7⟩ ⟨21⟩ = true := by decide
  exact ⟨h, hr, hfrees, ((refused_claim h hr).2 hfrees).1, by decide⟩

theorem refused_claim_changes : ¬ ∀ (allocates : Allocator) (limits : Limits) (reg : Registry)
    (file : FileId) (owner : Pid) (cause : Refusal), Reachable allocates limits reg →
      (reg.claim allocates file owner).answer = .error cause →
      (reg.claim allocates file owner).registry = reg := by
  intro hall
  have h : Reachable (fun _ => true) {} ((empty {}).execAll (fun _ => true) leftBehind) :=
    Reachable.execAll _ .empty
  have hbad := hall _ _ _ ⟨7⟩ ⟨21⟩ .treeDead h (by decide)
  revert hbad
  decide

end Containment.Registry
