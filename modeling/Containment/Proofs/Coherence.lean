import Containment.Proofs.Anchor
import Containment.Proofs.Capacity

/-!
# Queries that agree

The queries find a family by its root, by a process or by a file. In a sound table these three ways
lead to one family, whatever the order of the slots, and also where a root has left its family or
all processes have. So each query can be answered from the roots, and the summaries say of each
family what is said when one asks for its root (`queries_agree`).
-/

namespace Containment.Registry

variable {allocates : Allocator} {limits : Limits} {reg : Registry} {pid other root : Pid}
variable {file : FileId}

/-! ## Processes -/

theorem isValid_rootOf_iff (h : SoundTable allocates reg.families) :
    (reg.rootOf pid).isValid = true ↔ HasMember reg.families (reg.rootOf pid) pid := by
  constructor
  · intro hv
    exact (rootOf_eq_iff h hv).1 rfl
  · rintro ⟨f, hf, hroot, -⟩
    rw [← hroot]
    exact (h.sound f hf).root

theorem isValid_rootOf_eq_tracks (h : SoundTable allocates reg.families) :
    (reg.rootOf pid).isValid = reg.tracks pid := by
  rw [Bool.eq_iff_iff, isValid_rootOf_iff h, h.tracks_iff]
  constructor
  · intro hm
    exact ⟨_, hm⟩
  · rintro ⟨root, hm⟩
    rwa [h.rootOf hm]

theorem related_iff_rootOf (h : SoundTable allocates reg.families) :
    reg.related pid other = true ↔
      (reg.rootOf pid).isValid = true ∧ (reg.rootOf other).isValid = true ∧
        reg.rootOf pid = reg.rootOf other := by
  rw [h.related_iff]
  constructor
  · rintro ⟨root, hp, ho⟩
    rw [isValid_rootOf_iff h, isValid_rootOf_iff h, h.rootOf hp, h.rootOf ho]
    exact ⟨hp, ho, rfl⟩
  · rintro ⟨hp, ho, hroot⟩
    rw [isValid_rootOf_iff h] at hp ho
    exact ⟨_, hp, hroot ▸ ho⟩

/-! ## Files -/

theorem owns_iff_roots (h : SoundTable allocates reg.families) :
    reg.owns pid file = true ↔
      (reg.rootOfFile file).isValid = true ∧ reg.rootOfFile file = reg.rootOf pid := by
  rw [h.owns_iff]
  constructor
  · rintro ⟨root, hp, hf⟩
    have hv : (reg.rootOf pid).isValid = true := by
      rw [isValid_rootOf_iff h, h.rootOf hp]
      exact hp
    rw [h.rootOfFile hf, ← h.rootOf hp]
    exact ⟨hv, rfl⟩
  · rintro ⟨hv, hroot⟩
    have hf := (rootOfFile_eq_iff h hv).1 rfl
    rw [hroot] at hv hf
    exact ⟨_, (isValid_rootOf_iff h).1 hv, hf⟩

/-! ## Summaries -/

variable {f : Family} {s : Summary}

theorem toNat_count {n : Nat} (limit : UInt64) (h : n ≤ limit.toNat) :
    (UInt64.ofNat n).toNat = n :=
  UInt64.toNat_ofNat_of_lt (Nat.lt_of_le_of_lt h limit.toNat_lt)

theorem nodup_roots (h : SoundTable allocates reg.families) :
    (reg.families.map Family.root).Nodup :=
  List.pairwise_map.2 (h.apart.imp Family.Apart.roots)

theorem count_summary (h : Reachable allocates limits reg) (hf : f ∈ reg.families) :
    f.summary.members.toNat = f.members.count ∧ f.summary.files.toNat = f.files.count := by
  have hs := h.sound.sound f hf
  have hsized := h.withinLimits.sized f hf
  constructor
  · apply toNat_count limits.maxMembers
    rw [← hsized.members]
    exact hs.members.within
  · apply toNat_count limits.maxFiles
    rw [← hsized.files]
    exact hs.files.within

theorem summary_views (h : Reachable allocates limits reg) (hs : s ∈ reg.summaries) :
    s.members.toNat = reg.memberCount s.root ∧ s.members.toNat = (reg.members s.root).length ∧
      s.files.toNat = (reg.files s.root).length ∧
      (s.live = true ↔ s.root ∈ reg.members s.root) := by
  obtain ⟨f, hf, rfl⟩ := List.mem_map.1 hs
  have hcount : reg.memberCount f.root = f.members.count :=
    h.sound.view_root hf (fun f => f.members.count) 0
  have hmembers : reg.members f.root = f.members.items := members_root h.sound hf
  have hfiles : reg.files f.root = f.files.items :=
    h.sound.view_root hf (fun f => f.files.items) []
  obtain ⟨hm, hn⟩ := count_summary h hf
  show _ = reg.memberCount f.root ∧ _ = (reg.members f.root).length ∧
    _ = (reg.files f.root).length ∧ (f.isLive = true ↔ f.root ∈ reg.members f.root)
  rw [hcount, hmembers, hfiles, hm, hn]
  exact ⟨rfl, rfl, rfl, Family.isLive_iff⟩

/-! ## All queries together -/

/-- What the queries say of one another. -/
structure Coherent (reg : Registry) : Prop where
  related_self : ∀ pid, reg.related pid pid = reg.tracks pid
  related_comm : ∀ first second, reg.related first second = reg.related second first
  related_trans : ∀ first second third, reg.related first second = true →
    reg.related second third = true → reg.related first third = true
  related_roots : ∀ first second, reg.related first second = true ↔
    (reg.rootOf first).isValid = true ∧ (reg.rootOf second).isValid = true ∧
      reg.rootOf first = reg.rootOf second
  tracked : ∀ pid, reg.tracks pid = true ↔ (reg.rootOf pid).isValid = true
  member : ∀ pid, reg.tracks pid = true ↔ pid ∈ reg.members (reg.rootOf pid)
  file : ∀ file root, root.isValid = true →
    (reg.rootOfFile file = root ↔ file ∈ reg.files root)
  owned : ∀ pid file, reg.owns pid file = true ↔
    (reg.rootOfFile file).isValid = true ∧ reg.rootOfFile file = reg.rootOf pid
  /-- There is one summary a family. -/
  summaries : reg.summaries.map Summary.root = reg.families.map Family.root ∧
    (reg.summaries.map Summary.root).Nodup
  counts : ∀ s ∈ reg.summaries,
    s.members.toNat = reg.memberCount s.root ∧ s.members.toNat = (reg.members s.root).length ∧
      s.files.toNat = (reg.files s.root).length
  live : ∀ s ∈ reg.summaries, s.live = true ↔ s.root ∈ reg.members s.root

theorem queries_agree (h : Reachable allocates limits reg) : reg.Coherent := by
  have hs := h.sound
  have hroots : reg.summaries.map Summary.root = reg.families.map Family.root := by
    simp [summaries, Family.summary]
  have hvalid (p : Pid) : reg.tracks p = true ↔ (reg.rootOf p).isValid = true := by
    rw [isValid_rootOf_eq_tracks hs]
  constructor
  case related_self =>
    intro p
    rw [Bool.eq_iff_iff, related_iff_rootOf hs, hvalid]
    simp
  case related_comm =>
    intro p q
    rw [Bool.eq_iff_iff, related_iff_rootOf hs, related_iff_rootOf hs]
    constructor
    · rintro ⟨hp, hq, hroot⟩
      exact ⟨hq, hp, hroot.symm⟩
    · rintro ⟨hq, hp, hroot⟩
      exact ⟨hp, hq, hroot.symm⟩
  case related_trans =>
    intro p q r hpq hqr
    rw [related_iff_rootOf hs] at hpq hqr ⊢
    exact ⟨hpq.1, hqr.2.1, hpq.2.2.trans hqr.2.2⟩
  case related_roots => exact fun p q => related_iff_rootOf hs
  case tracked => exact hvalid
  case member =>
    intro p
    rw [hvalid, isValid_rootOf_iff hs, hs.mem_members]
  case file =>
    intro file root hroot
    rw [rootOfFile_eq_iff hs hroot, hs.mem_files]
  case owned => exact fun p file => owns_iff_roots hs
  case summaries =>
    refine ⟨hroots, ?_⟩
    rw [hroots]
    exact nodup_roots hs
  case counts =>
    intro s hmem
    obtain ⟨hcount, hmembers, hfiles, -⟩ := summary_views h hmem
    exact ⟨hcount, hmembers, hfiles⟩
  case live => exact fun s hmem => (summary_views h hmem).2.2.2

/-- 10 is the root of a family without processes, which keeps a file, and a member of the family of
20, which has left it. -/
theorem queries_agree_twofold :
    let reg := (empty {}).execAll (fun _ => true) (twofold ++ [.dismiss ⟨20⟩])
    Reachable (fun _ => true) {} reg ∧ reg.Coherent ∧
      reg.rootOf ⟨10⟩ = ⟨20⟩ ∧ reg.rootOfFile ⟨7⟩ = ⟨10⟩ ∧ reg.owns ⟨10⟩ ⟨7⟩ = false ∧
      reg.related ⟨21⟩ ⟨10⟩ = true ∧
      (reg.summaries.map fun s => (s.root.raw.toNat, s.live)) = [(10, false), (20, false)] := by
  intro reg
  have h : Reachable (fun _ => true) {} reg := Reachable.execAll _ .empty
  exact ⟨h, queries_agree h, by decide, by decide, by decide, by decide, by decide⟩

end Containment.Registry
