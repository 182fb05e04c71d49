import Containment.Proofs.Ownership

/-!
# Buffers

The processes or the files of a family are copied into a buffer of any length. The smallest of them
come first, as many as fit, and what is left of the buffer is filled with the identifier that names
nothing (`Copies`). No family has that identifier in it, so what a buffer shows can be told from its
padding without the number that was answered (`padding_told_apart`).
-/

namespace Containment

variable {α : Type} [LT α] [DecidableEq α] {allocates : Allocator} {invalid : α} {buffer : List α}

/-- What copying things that are `held` into a buffer answers and leaves in it. -/
structure Copies (held : α → Prop) (invalid : α) (total : Nat) (buffer : List α)
    (result : Nat × List α) : Prop where
  length : result.2.length = buffer.length
  copied : result.1 = min buffer.length total
  ascending : (result.2.take result.1).Pairwise (· < ·)
  entries : ∀ x ∈ result.2.take result.1, held x
  /-- Only a full buffer leaves something out, which is greater than all that it shows. -/
  smallest : ∀ x, held x → x ∉ result.2.take result.1 →
    result.1 = buffer.length ∧ ∀ y ∈ result.2.take result.1, y < x
  padding : ∀ x ∈ result.2.drop result.1, x = invalid
  valid : result.2.filter (· != invalid) = result.2.take result.1

/-! ## Sets -/

namespace BoundedSet

variable {s : BoundedSet α}

omit [LT α] [DecidableEq α] in
theorem cells_fill (s : BoundedSet α) (invalid : α) (buffer : List α) :
    (s.fill invalid buffer).2.take (s.fill invalid buffer).1 = s.items.take buffer.length ∧
      (s.fill invalid buffer).2.drop (s.fill invalid buffer).1 =
        List.replicate (buffer.length - s.count) invalid := by
  have hlength : (s.items.take (min s.count buffer.length)).length = min s.count buffer.length := by
    rw [List.length_take, count]
    omega
  have htake : s.items.take (min s.count buffer.length) = s.items.take buffer.length := by
    rw [Nat.min_comm]
    exact List.take_eq_take_iff.2 (by rw [count]; omega)
  have hrest : buffer.length - min s.count buffer.length = buffer.length - s.count := by omega
  rw [← htake, ← hrest]
  exact ⟨List.take_left' hlength, List.drop_left' hlength⟩

theorem copies_fill (h : s.items.Pairwise (· < ·)) (hinvalid : invalid ∉ s.items)
    (buffer : List α) :
    Copies (· ∈ s.items) invalid s.count buffer (s.fill invalid buffer) := by
  obtain ⟨htake, hdrop⟩ := s.cells_fill invalid buffer
  have hcells : (s.fill invalid buffer).2 =
      s.items.take buffer.length ++ List.replicate (buffer.length - s.count) invalid := by
    rw [← htake, ← hdrop, List.take_append_drop]
  constructor
  case length =>
    rw [hcells, List.length_append, List.length_take, List.length_replicate, count]
    omega
  case copied => exact Nat.min_comm _ _
  case ascending =>
    rw [htake]
    exact h.take
  case entries =>
    rw [htake]
    exact fun x hx => List.mem_of_mem_take hx
  case smallest =>
    intro x hx hout
    rw [htake] at hout ⊢
    rw [← List.take_append_drop buffer.length s.items] at h hx
    have hx := (List.mem_append.1 hx).resolve_left hout
    have hfull : buffer.length < s.count := by
      have := List.length_pos_of_mem hx
      rw [List.length_drop] at this
      exact Nat.lt_of_sub_pos this
    refine ⟨Nat.min_eq_right (Nat.le_of_lt hfull), fun y hy => ?_⟩
    exact (List.pairwise_append.1 h).2.2 y hy x hx
  case padding =>
    rw [hdrop]
    exact fun x hx => List.eq_of_mem_replicate hx
  case valid =>
    have hsome : ∀ x ∈ s.items.take buffer.length, (x != invalid) = true := by
      intro x hx
      rw [bne_iff_ne]
      exact fun hbad => hinvalid (hbad ▸ List.mem_of_mem_take hx)
    rw [htake, hcells, List.filter_append, List.filter_eq_self.2 hsome]
    simp

end BoundedSet

/-! ## Families -/

/-- Of the family rooted at `root`, whatever is looked at is copied. -/
theorem SoundTable.copies_view {reg : Registry} {root : Pid}
    (h : SoundTable allocates reg.families) (view : Family → BoundedSet α)
    (hview : ∀ f ∈ reg.families, (view f).items.Pairwise (· < ·) ∧ invalid ∉ (view f).items) :
    Copies (fun x => ∃ f ∈ reg.families, f.root = root ∧ x ∈ (view f).items) invalid
      (((reg.slotOfRoot? root).map fun slot => (view slot.family).items).getD []).length buffer
      (match reg.slotOfRoot? root with
      | some slot => (view slot.family).fill invalid buffer
      | none => (0, List.replicate buffer.length invalid)) := by
  have hheld (x : α) :
      x ∈ ((reg.slotOfRoot? root).map fun slot => (view slot.family).items).getD [] ↔
        ∃ f ∈ reg.families, f.root = root ∧ x ∈ (view f).items :=
    h.mem_view fun f => (view f).items
  simp only [← hheld]
  cases hs : reg.slotOfRoot? root with
  | some slot =>
    have hf := List.mem_of_getElem? (Registry.of_slotOfRoot? hs).1
    exact BoundedSet.copies_fill (hview _ hf).1 (hview _ hf).2 buffer
  | none =>
    have hnone : Copies _ invalid _ buffer (BoundedSet.fill invalid ⟨0, none⟩ buffer) :=
      BoundedSet.copies_fill .nil List.not_mem_nil buffer
    simpa [BoundedSet.fill, BoundedSet.count, BoundedSet.items] using hnone

namespace Registry

variable {limits : Limits} {reg : Registry} {root : Pid}

theorem length_members : (reg.members root).length = reg.memberCount root := by
  unfold members memberCount
  cases reg.slotOfRoot? root <;> rfl

theorem slotOfRoot?_eq_none (h : ∀ f ∈ reg.families, f.root ≠ root) :
    reg.slotOfRoot? root = none := by
  cases hs : reg.slotOfRoot? root with
  | none => rfl
  | some slot =>
    obtain ⟨hi, hroot⟩ := of_slotOfRoot? hs
    exact absurd hroot (h _ (List.mem_of_getElem? hi))

/-- A buffer shows the smallest processes or files of the family of a root, and nothing of any other
pid, whatever was in it before. -/
theorem padding_told_apart (h : Reachable allocates limits reg) (root : Pid) :
    (∀ buffer : List Pid, Copies (HasMember reg.families root) .invalid (reg.memberCount root)
      buffer (reg.fillMembers root buffer)) ∧
    (∀ buffer : List FileId, Copies (HasFile reg.families root) .invalid (reg.files root).length
      buffer (reg.fillFiles root buffer)) ∧
    ((∀ f ∈ reg.families, f.root ≠ root) →
      (∀ buffer : List Pid,
        reg.fillMembers root buffer = (0, List.replicate buffer.length .invalid)) ∧
      ∀ buffer : List FileId,
        reg.fillFiles root buffer = (0, List.replicate buffer.length .invalid)) := by
  have hs := h.sound
  refine ⟨fun buffer => ?_, fun buffer => ?_, fun hno => ?_⟩
  · rw [← length_members]
    exact hs.copies_view Family.members fun f hf =>
      ⟨(hs.sound f hf).members.ascending, (hs.sound f hf).pids⟩
  · exact hs.copies_view Family.files fun f hf =>
      ⟨(hs.sound f hf).files.ascending, (hs.sound f hf).fileIds⟩
  · have hnone := slotOfRoot?_eq_none hno
    unfold fillMembers fillFiles
    rw [hnone]
    exact ⟨fun _ => rfl, fun _ => rfl⟩

/-- A family that has lost its root, copied into a buffer too short for its processes and into one
too long for its files, and a process that is the root of none. -/
theorem padding_told_apart_short :
    let reg := (empty {}).execAll (fun _ => true)
      [.found ⟨30⟩ ⟨7⟩ .protectDroppedFiles, .enroll ⟨10⟩ ⟨30⟩, .enroll ⟨20⟩ ⟨30⟩,
        .claim ⟨9⟩ ⟨30⟩, .claim ⟨7⟩ ⟨30⟩, .dismiss ⟨30⟩, .found ⟨40⟩ .invalid .noRestriction]
    let members := reg.fillMembers ⟨30⟩ [⟨99⟩]
    let files := reg.fillFiles ⟨30⟩ [⟨99⟩, ⟨99⟩, ⟨99⟩]
    Reachable (fun _ => true) {} reg ∧
      (members = (1, [⟨10⟩]) ∧ Copies (HasMember reg.families ⟨30⟩) .invalid 2 [⟨99⟩] members) ∧
      (files = (2, [⟨7⟩, ⟨9⟩, .invalid]) ∧
        Copies (HasFile reg.families ⟨30⟩) .invalid 2 [⟨99⟩, ⟨99⟩, ⟨99⟩] files) ∧
      (∀ f ∈ reg.families, f.root ≠ ⟨10⟩) ∧
      reg.fillMembers ⟨10⟩ [⟨99⟩, ⟨99⟩] = (0, [.invalid, .invalid]) := by
  intro reg members files
  have h : Reachable (fun _ => true) {} reg := Reachable.execAll _ .empty
  obtain ⟨hmembers, hfiles, -⟩ := padding_told_apart h ⟨30⟩
  have hno : ∀ f ∈ reg.families, f.root ≠ ⟨10⟩ := by decide
  exact ⟨h, ⟨by decide, hmembers [⟨99⟩]⟩, ⟨by decide, hfiles [⟨99⟩, ⟨99⟩, ⟨99⟩]⟩, hno,
    ((padding_told_apart h ⟨10⟩).2.2 hno).1 [⟨99⟩, ⟨99⟩]⟩

end Registry

end Containment
