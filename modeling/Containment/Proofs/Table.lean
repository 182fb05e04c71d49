import Containment.Proofs.Slots
import Containment.Registry.Query

/-!
# Tables in which everything has one place

`SoundTable` is the invariant of the registry: each family is sound, and two of them have neither
root nor process nor file in common. What the look-ups of such a table find is told by two
relations, `HasMember` and `HasFile`, that do not depend on the order of the slots.
-/

namespace Containment

variable {allocates : Allocator}

/-! ## Sound families -/

structure Family.Sound (allocates : Allocator) (f : Family) : Prop where
  root : f.root.isValid = true
  members : f.members.Sound allocates
  files : f.files.Sound allocates
  pids : Pid.invalid ∉ f.members.items
  fileIds : FileId.invalid ∉ f.files.items

namespace Family

variable {f g : Family} {pid root : Pid} {file origin : FileId} {policy : Policy}

theorem isLive_iff : f.isLive = true ↔ f.root ∈ f.members.items := BoundedSet.contains_iff

theorem enroll_eq_ok (h : f.enroll allocates pid = .ok g) :
    (pid = f.root ∨ f.isLive = true) ∧
      ∃ members, f.members.insert allocates pid = .ok members ∧ g = { f with members } := by
  unfold enroll at h
  split at h
  · cases h
  rename_i hlive
  cases hins : f.members.insert allocates pid with
  | error cause => rw [hins] at h; cases h
  | ok members =>
    rw [hins] at h
    cases h
    refine ⟨?_, members, rfl, rfl⟩
    by_cases hroot : pid = f.root
    · exact .inl hroot
    · exact .inr (by simpa [hroot] using hlive)

theorem claim_eq_ok (h : f.claim allocates file = .ok g) :
    f.isLive = true ∧
      ∃ files, f.files.insert allocates file = .ok files ∧ g = { f with files } := by
  unfold claim at h
  split at h
  · cases h
  rename_i hlive
  cases hins : f.files.insert allocates file with
  | error cause => rw [hins] at h; cases h
  | ok files =>
    rw [hins] at h
    cases h
    exact ⟨by simpa using hlive, files, rfl, rfl⟩

theorem founded_eq_ok {m n : Nat} (h : founded allocates root origin policy m n = .ok f) :
    (allocates m = true ∧ allocates n = true ∧ 0 < m) ∧
      f = { root, origin, policy, members := ⟨m, some [root]⟩, files := ⟨n, some []⟩ } := by
  unfold founded prepare blank at h
  by_cases hm : allocates m = true
  · by_cases hn : allocates n = true
    · rw [BoundedSet.prepare_eq hm, BoundedSet.prepare_eq hn] at h
      simp only [bind, Except.bind, pure, Except.pure, enroll, bne_self_eq_false, Bool.false_and,
        Bool.false_eq_true, if_false] at h
      rw [BoundedSet.insert_eq hm] at h
      split at h
      · cases h
      · split at h
        · cases h
        · rename_i hroom
          cases h
          exact ⟨⟨hm, hn, Nat.lt_of_not_le hroom⟩, rfl⟩
    · rw [BoundedSet.prepare_eq hm] at h
      simp [bind, Except.bind, BoundedSet.prepare, hn] at h
  · simp [bind, Except.bind, BoundedSet.prepare, hm] at h

namespace Sound

theorem valid_of_member (hf : f.Sound allocates) (h : pid ∈ f.members.items) :
    pid.isValid = true := by
  rw [Pid.isValid_iff]
  intro hbad
  subst hbad
  exact hf.pids h

theorem valid_of_file (hf : f.Sound allocates) (h : file ∈ f.files.items) :
    file.isValid = true := by
  rw [FileId.isValid_iff]
  intro hbad
  subst hbad
  exact hf.fileIds h

theorem enroll_cases (hf : f.Sound allocates) (allocates' : Allocator) (pid : Pid) :
    f.enroll allocates' pid = f.enroll allocates pid ∨
      f.members.prepare allocates' = .error .uninitialized ∧
        f.enroll allocates' pid = .error .uninitialized := by
  unfold Family.enroll
  split
  · exact .inl rfl
  · rcases hf.members.insert_cases allocates' pid with hsame | ⟨hfailed, hinsert⟩
    · exact .inl (by rw [hsame])
    · exact .inr ⟨hfailed, by rw [hinsert]; rfl⟩

theorem claim_cases (hf : f.Sound allocates) (allocates' : Allocator) (file : FileId) :
    f.claim allocates' file = f.claim allocates file ∨
      f.claim allocates' file = .error .uninitialized := by
  unfold Family.claim
  split
  · exact .inl rfl
  · rcases hf.files.insert_cases allocates' file with hsame | ⟨-, hinsert⟩
    · exact .inl (by rw [hsame])
    · exact .inr (by rw [hinsert]; rfl)

theorem enroll (hf : f.Sound allocates) (hv : pid.isValid = true)
    (h : f.enroll allocates pid = .ok g) :
    g.Sound allocates ∧ g.root = f.root ∧ g.files = f.files ∧ pid ∉ f.members.items ∧
      ∀ x, x ∈ g.members.items ↔ x = pid ∨ x ∈ f.members.items := by
  obtain ⟨-, members, hins, rfl⟩ := enroll_eq_ok h
  obtain ⟨hs, -, hnew, hmem⟩ := hf.members.insert hins
  refine ⟨{ hf with members := hs, pids := fun hbad => ?_ }, rfl, rfl, hnew, hmem⟩
  rcases (hmem _).1 hbad with rfl | hbad
  · exact absurd rfl (Pid.isValid_iff.1 hv)
  · exact hf.pids hbad

theorem claim (hf : f.Sound allocates) (hv : file.isValid = true)
    (h : f.claim allocates file = .ok g) :
    g.Sound allocates ∧ g.root = f.root ∧ g.members = f.members ∧ file ∉ f.files.items ∧
      ∀ x, x ∈ g.files.items ↔ x = file ∨ x ∈ f.files.items := by
  obtain ⟨-, files, hins, rfl⟩ := claim_eq_ok h
  obtain ⟨hs, -, hnew, hmem⟩ := hf.files.insert hins
  refine ⟨{ hf with files := hs, fileIds := fun hbad => ?_ }, rfl, rfl, hnew, hmem⟩
  rcases (hmem _).1 hbad with rfl | hbad
  · exact absurd rfl (FileId.isValid_iff.1 hv)
  · exact hf.fileIds hbad

theorem mem_dismiss (hf : f.Sound allocates) {x : Pid} :
    x ∈ (f.dismiss pid).members.items ↔ x ≠ pid ∧ x ∈ f.members.items :=
  hf.members.mem_erase

theorem mem_disown (hf : f.Sound allocates) {x : FileId} :
    x ∈ (f.disown file).files.items ↔ x ≠ file ∧ x ∈ f.files.items :=
  hf.files.mem_erase

theorem dismiss (hf : f.Sound allocates) : (f.dismiss pid).Sound allocates :=
  { hf with
    members := hf.members.erase
    pids := fun h => hf.pids (hf.mem_dismiss.1 h).2 }

theorem disown (hf : f.Sound allocates) : (f.disown file).Sound allocates :=
  { hf with
    files := hf.files.erase
    fileIds := fun h => hf.fileIds (hf.mem_disown.1 h).2 }

theorem founded {m n : Nat} (hv : root.isValid = true)
    (h : Family.founded allocates root origin policy m n = .ok f) : f.Sound allocates := by
  obtain ⟨⟨hm, hn, hpos⟩, rfl⟩ := founded_eq_ok h
  refine ⟨hv, ⟨List.pairwise_singleton _ _, hpos, hm⟩, ⟨.nil, Nat.zero_le _, hn⟩, ?_, ?_⟩
  · simpa [BoundedSet.items] using (Pid.isValid_iff.1 hv).symm
  · simp [BoundedSet.items]

end Sound

/-! ## Families apart -/

structure Apart (f g : Family) : Prop where
  roots : f.root ≠ g.root
  members : f.members.items.Disjoint g.members.items
  files : f.files.items.Disjoint g.files.items

theorem Apart.symm (h : f.Apart g) : g.Apart f :=
  ⟨h.roots.symm, fun _ hg hf => h.members hf hg, fun _ hg hf => h.files hf hg⟩

end Family

/-! ## Sound tables -/

structure SoundTable (allocates : Allocator) (families : List Family) : Prop where
  sound : ∀ f ∈ families, f.Sound allocates
  apart : families.Pairwise Family.Apart

namespace SoundTable

variable {families rest fs gs : List Family} {f g : Family} {i j : Nat}

theorem nil : SoundTable allocates [] := ⟨by simp, .nil⟩

theorem perm (h : SoundTable allocates fs) (hp : fs.Perm gs) : SoundTable allocates gs :=
  ⟨fun f hf => h.sound f (hp.mem_iff.2 hf), (hp.pairwise_iff Family.Apart.symm).1 h.apart⟩

theorem cons_iff : SoundTable allocates (f :: rest) ↔
    f.Sound allocates ∧ (∀ g ∈ rest, f.Apart g) ∧ SoundTable allocates rest := by
  constructor
  · intro h
    obtain ⟨ha, hr⟩ := List.pairwise_cons.1 h.apart
    exact ⟨h.sound f List.mem_cons_self, ha, fun g hg => h.sound g (List.mem_cons_of_mem _ hg), hr⟩
  · intro h
    obtain ⟨hf, ha, hr⟩ := h
    exact ⟨List.forall_mem_cons.2 ⟨hf, hr.sound⟩, List.pairwise_cons.2 ⟨ha, hr.apart⟩⟩

theorem apart_of_ne (h : SoundTable allocates families) (hi : families[i]? = some f)
    (hj : families[j]? = some g) (hij : i ≠ j) : f.Apart g := by
  obtain ⟨hi', rfl⟩ := List.getElem?_eq_some_iff.1 hi
  obtain ⟨hj', rfl⟩ := List.getElem?_eq_some_iff.1 hj
  rcases Nat.lt_or_gt_of_ne hij with hlt | hgt
  · exact List.pairwise_iff_getElem.1 h.apart i j hi' hj' hlt
  · exact (List.pairwise_iff_getElem.1 h.apart j i hj' hi' hgt).symm

theorem slot_eq (h : SoundTable allocates families) (hi : families[i]? = some f)
    (hj : families[j]? = some g) (hc : ¬ f.Apart g) : (⟨i, f⟩ : Slot) = ⟨j, g⟩ := by
  by_cases hij : i = j
  · subst hij
    rw [hi] at hj
    cases hj
    rfl
  · exact absurd (h.apart_of_ne hi hj hij) hc

theorem eq_of_not_apart (h : SoundTable allocates families) (hf : f ∈ families)
    (hg : g ∈ families) (hc : ¬ f.Apart g) : f = g := by
  obtain ⟨i, hi⟩ := List.getElem?_of_mem hf
  obtain ⟨j, hj⟩ := List.getElem?_of_mem hg
  exact congrArg Slot.family (h.slot_eq hi hj hc)

theorem slot_of_root (h : SoundTable allocates families) (hi : families[i]? = some f)
    (hj : families[j]? = some g) (hr : f.root = g.root) : (⟨i, f⟩ : Slot) = ⟨j, g⟩ :=
  h.slot_eq hi hj fun ha => ha.roots hr

theorem slot_of_member (h : SoundTable allocates families) (hi : families[i]? = some f)
    (hj : families[j]? = some g) {pid : Pid} (hf : pid ∈ f.members.items)
    (hg : pid ∈ g.members.items) : (⟨i, f⟩ : Slot) = ⟨j, g⟩ :=
  h.slot_eq hi hj fun ha => ha.members hf hg

theorem slot_of_file (h : SoundTable allocates families) (hi : families[i]? = some f)
    (hj : families[j]? = some g) {file : FileId} (hf : file ∈ f.files.items)
    (hg : file ∈ g.files.items) : (⟨i, f⟩ : Slot) = ⟨j, g⟩ :=
  h.slot_eq hi hj fun ha => ha.files hf hg

end SoundTable

/-! ## What the look-ups find -/

def HasMember (families : List Family) (root pid : Pid) : Prop :=
  ∃ f ∈ families, f.root = root ∧ pid ∈ f.members.items

def HasFile (families : List Family) (root : Pid) (file : FileId) : Prop :=
  ∃ f ∈ families, f.root = root ∧ file ∈ f.files.items

def FamilyOwns (families : List Family) (pid : Pid) (file : FileId) : Prop :=
  ∃ root, HasMember families root pid ∧ HasFile families root file

theorem HasMember.perm {fs gs : List Family} {root pid : Pid} (hp : fs.Perm gs) :
    HasMember fs root pid ↔ HasMember gs root pid := by
  simp only [HasMember, hp.mem_iff]

theorem HasFile.perm {fs gs : List Family} {root : Pid} {file : FileId} (hp : fs.Perm gs) :
    HasFile fs root file ↔ HasFile gs root file := by
  simp only [HasFile, hp.mem_iff]

theorem BoundedSet.Sound.one_lt_count {α : Type} [LT α] [IsStrictTotalOrder α (· < ·)]
    {s : BoundedSet α} (hs : s.Sound allocates) {x : α} (hx : x ∈ s.items) :
    1 < s.count ↔ ∃ y ∈ s.items, y ≠ x := by
  have hn : s.items.Nodup := hs.ascending.imp fun h => ne_of_irrefl h
  unfold count
  generalize s.items = items at hx hn
  match items, hx, hn with
  | [y], hx, _ => simpa using (List.mem_singleton.1 hx).symm
  | y :: z :: rest, _, hn =>
    have hyz : y ≠ z := fun h => (List.nodup_cons.1 hn).1 (h ▸ List.mem_cons_self)
    refine ⟨fun _ => ?_, fun _ => by simp⟩
    by_cases hy : y = x
    · exact ⟨z, by simp, fun hz => hyz (hy.trans hz.symm)⟩
    · exact ⟨y, by simp, hy⟩

namespace SoundTable

variable {reg : Registry} {slot : Slot} {f : Family} {i : Nat} {pid root root' : Pid}
variable {file : FileId}

theorem root_of_member (h : SoundTable allocates reg.families)
    (hm : HasMember reg.families root pid) (hm' : HasMember reg.families root' pid) :
    root = root' := by
  obtain ⟨f, hf, rfl, hp⟩ := hm
  obtain ⟨g, hg, rfl, hp'⟩ := hm'
  obtain ⟨i, hi⟩ := List.getElem?_of_mem hf
  obtain ⟨j, hj⟩ := List.getElem?_of_mem hg
  cases h.slot_of_member hi hj hp hp'
  rfl

theorem hasMember_root {families : List Family} (h : SoundTable allocates families)
    (hf : f ∈ families) : HasMember families f.root pid ↔ pid ∈ f.members.items := by
  constructor
  · rintro ⟨g, hg, hroot, hp⟩
    rwa [h.eq_of_not_apart hg hf fun ha => ha.roots hroot] at hp
  · exact fun hp => ⟨f, hf, rfl, hp⟩

theorem hasFile_root {families : List Family} (h : SoundTable allocates families)
    (hf : f ∈ families) : HasFile families f.root file ↔ file ∈ f.files.items := by
  constructor
  · rintro ⟨g, hg, hroot, hx⟩
    rwa [h.eq_of_not_apart hg hf fun ha => ha.roots hroot] at hx
  · exact fun hx => ⟨f, hf, rfl, hx⟩

theorem slotOfMember? (h : SoundTable allocates reg.families) (hi : reg.families[i]? = some f)
    (hp : pid ∈ f.members.items) : reg.slotOfMember? pid = some ⟨i, f⟩ := by
  cases hs : reg.slotOfMember? pid with
  | none => exact absurd hp (Registry.slotOfMember?_eq_none.1 hs f (List.mem_of_getElem? hi))
  | some slot =>
    obtain ⟨hj, hp'⟩ := Registry.of_slotOfMember? hs
    rw [← h.slot_of_member hj hi hp' hp]

theorem slotOfFile? (h : SoundTable allocates reg.families) (hi : reg.families[i]? = some f)
    (hp : file ∈ f.files.items) : reg.slotOfFile? file = some ⟨i, f⟩ := by
  cases hs : reg.slotOfFile? file with
  | none => exact absurd hp (Registry.slotOfFile?_eq_none.1 hs f (List.mem_of_getElem? hi))
  | some slot =>
    obtain ⟨hj, hp'⟩ := Registry.of_slotOfFile? hs
    rw [← h.slot_of_file hj hi hp' hp]

theorem slotOfRoot? (h : SoundTable allocates reg.families) (hi : reg.families[i]? = some f) :
    reg.slotOfRoot? f.root = some ⟨i, f⟩ := by
  have hf := List.mem_of_getElem? hi
  obtain ⟨slot, hs⟩ := Slot.isSome_find? (p := fun g => g.root == f.root) hf (beq_self_eq_true _)
  have hr : reg.slotOfRoot? f.root = some slot := by
    rw [Registry.slotOfRoot?, if_pos (h.sound f hf).root, hs]
  obtain ⟨hj, hroot⟩ := Registry.of_slotOfRoot? hr
  rw [hr, ← h.slot_of_root hj hi hroot]

theorem tracks_iff (h : SoundTable allocates reg.families) :
    reg.tracks pid = true ↔ ∃ root, HasMember reg.families root pid := by
  unfold Registry.tracks
  cases hs : reg.slotOfMember? pid with
  | none =>
    simp only [Option.isSome_none, Bool.and_false, Bool.false_eq_true, false_iff]
    intro hm
    obtain ⟨root, f, hf, -, hp⟩ := hm
    exact Registry.slotOfMember?_eq_none.1 hs f hf hp
  | some slot =>
    obtain ⟨hi, hp⟩ := Registry.of_slotOfMember? hs
    have hf := List.mem_of_getElem? hi
    rw [(h.sound _ hf).valid_of_member hp, Option.isSome_some, Bool.and_self]
    exact ⟨fun _ => ⟨_, _, hf, rfl, hp⟩, fun _ => rfl⟩

theorem view_root {β : Type} (h : SoundTable allocates reg.families) (hf : f ∈ reg.families)
    (view : Family → β) (none : β) :
    ((reg.slotOfRoot? f.root).map fun slot => view slot.family).getD none = view f := by
  obtain ⟨i, hi⟩ := List.getElem?_of_mem hf
  rw [h.slotOfRoot? hi]
  rfl

theorem mem_view {β : Type} {x : β} (h : SoundTable allocates reg.families)
    (view : Family → List β) :
    x ∈ ((reg.slotOfRoot? root).map fun slot => view slot.family).getD [] ↔
      ∃ f ∈ reg.families, f.root = root ∧ x ∈ view f := by
  constructor
  · intro hx
    cases hs : reg.slotOfRoot? root with
    | none => simp [hs] at hx
    | some slot =>
      obtain ⟨hi, hroot⟩ := Registry.of_slotOfRoot? hs
      exact ⟨slot.family, List.mem_of_getElem? hi, hroot, by simpa [hs] using hx⟩
  · rintro ⟨f, hf, rfl, hx⟩
    obtain ⟨i, hi⟩ := List.getElem?_of_mem hf
    simpa [h.slotOfRoot? hi] using hx

theorem mem_members (h : SoundTable allocates reg.families) :
    pid ∈ reg.members root ↔ HasMember reg.families root pid := h.mem_view fun f => f.members.items

theorem mem_files (h : SoundTable allocates reg.families) :
    file ∈ reg.files root ↔ HasFile reg.families root file := h.mem_view fun f => f.files.items

theorem nodup_members (h : SoundTable allocates reg.families) (root : Pid) :
    (reg.members root).Nodup := by
  unfold Registry.members
  cases hs : reg.slotOfRoot? root with
  | none => exact List.nodup_nil
  | some slot =>
    have hf := List.mem_of_getElem? (Registry.of_slotOfRoot? hs).1
    exact (h.sound _ hf).members.ascending.imp fun hlt => ne_of_irrefl hlt

theorem owns_iff (h : SoundTable allocates reg.families) :
    reg.owns pid file = true ↔ FamilyOwns reg.families pid file := by
  unfold Registry.owns
  constructor
  · intro ho
    simp only [Bool.and_eq_true, Option.any_eq_true, BoundedSet.contains_iff] at ho
    obtain ⟨-, slot, hs, hp⟩ := ho
    obtain ⟨hi, hx⟩ := Registry.of_slotOfFile? hs
    have hf := List.mem_of_getElem? hi
    exact ⟨_, ⟨_, hf, rfl, hp⟩, _, hf, rfl, hx⟩
  · rintro ⟨root, ⟨f, hf, hr, hp⟩, g, hg, hr', hx⟩
    obtain ⟨i, hi⟩ := List.getElem?_of_mem hf
    obtain ⟨j, hj⟩ := List.getElem?_of_mem hg
    cases h.slot_of_root hi hj (hr.trans hr'.symm)
    rw [(h.sound f hf).valid_of_member hp, (h.sound f hf).valid_of_file hx, h.slotOfFile? hi hx]
    simpa using hp

theorem valid_of_familyOwns (h : SoundTable allocates reg.families)
    (ho : FamilyOwns reg.families pid file) : file.isValid = true := by
  obtain ⟨root, -, f, hf, -, hx⟩ := ho
  exact (h.sound f hf).valid_of_file hx

theorem related_iff {other : Pid} (h : SoundTable allocates reg.families) :
    reg.related pid other = true ↔
      ∃ root, HasMember reg.families root pid ∧ HasMember reg.families root other := by
  unfold Registry.related
  constructor
  · intro hr
    simp only [Bool.and_eq_true, Option.any_eq_true, BoundedSet.contains_iff] at hr
    obtain ⟨-, slot, hs, ho⟩ := hr
    obtain ⟨hi, hp⟩ := Registry.of_slotOfMember? hs
    have hf := List.mem_of_getElem? hi
    exact ⟨_, ⟨_, hf, rfl, hp⟩, _, hf, rfl, ho⟩
  · rintro ⟨root, ⟨f, hf, hr, hp⟩, g, hg, hr', ho⟩
    obtain ⟨i, hi⟩ := List.getElem?_of_mem hf
    obtain ⟨j, hj⟩ := List.getElem?_of_mem hg
    cases h.slot_of_root hi hj (hr.trans hr'.symm)
    rw [(h.sound f hf).valid_of_member hp, (h.sound f hf).valid_of_member ho, h.slotOfMember? hi hp]
    simpa using ho

theorem rootOf (h : SoundTable allocates reg.families) (hm : HasMember reg.families root pid) :
    reg.rootOf pid = root := by
  obtain ⟨f, hf, rfl, hp⟩ := hm
  obtain ⟨i, hi⟩ := List.getElem?_of_mem hf
  rw [Registry.rootOf, if_pos ((h.sound _ hf).valid_of_member hp), h.slotOfMember? hi hp]
  rfl

theorem rootOfFile (h : SoundTable allocates reg.families)
    (hm : HasFile reg.families root file) : reg.rootOfFile file = root := by
  obtain ⟨f, hf, rfl, hx⟩ := hm
  obtain ⟨i, hi⟩ := List.getElem?_of_mem hf
  rw [Registry.rootOfFile, if_pos ((h.sound _ hf).valid_of_file hx), h.slotOfFile? hi hx]
  rfl

theorem isBusyRoot_iff (h : SoundTable allocates reg.families) : reg.isBusyRoot pid = true ↔
    HasMember reg.families pid pid ∧ ∃ other, other ≠ pid ∧ HasMember reg.families pid other := by
  constructor
  · intro hb
    unfold Registry.isBusyRoot at hb
    cases hs : reg.slotOfRoot? pid with
    | none => rw [hs] at hb; cases hb
    | some slot =>
      rw [hs] at hb
      simp only [Bool.and_eq_true, decide_eq_true_eq, Family.isLive_iff] at hb
      obtain ⟨hi, hr⟩ := Registry.of_slotOfRoot? hs
      have hf := List.mem_of_getElem? hi
      rw [hr] at hb
      obtain ⟨other, ho, hne⟩ := ((h.sound _ hf).members.one_lt_count hb.1).1 hb.2
      exact ⟨⟨_, hf, hr, hb.1⟩, other, hne, _, hf, hr, ho⟩
  · intro hb
    obtain ⟨⟨f, hf, hr, hp⟩, other, hne, g, hg, hr', ho⟩ := hb
    obtain ⟨i, hi⟩ := List.getElem?_of_mem hf
    obtain ⟨j, hj⟩ := List.getElem?_of_mem hg
    cases h.slot_of_root hi hj (hr.trans hr'.symm)
    have hs := h.slotOfRoot? hi
    rw [hr] at hs
    unfold Registry.isBusyRoot
    rw [hs]
    simp only [Bool.and_eq_true, decide_eq_true_eq, Family.isLive_iff]
    exact ⟨hr ▸ hp, ((h.sound _ hf).members.one_lt_count hp).2 ⟨other, ho, hne⟩⟩

end SoundTable

namespace Registry

variable {reg : Registry} {f : Family} {pid root : Pid} {file : FileId}

theorem members_root (h : SoundTable allocates reg.families) (hf : f ∈ reg.families) :
    reg.members f.root = f.members.items := h.view_root hf (fun f => f.members.items) []

theorem rootOf_eq_invalid (hno : ∀ root, ¬ HasMember reg.families root pid) :
    reg.rootOf pid = .invalid := by
  have hs : reg.slotOfMember? pid = none :=
    slotOfMember?_eq_none.2 fun f hf hp => hno f.root ⟨f, hf, rfl, hp⟩
  unfold rootOf
  rw [hs]
  simp

theorem rootOfFile_eq_invalid (hno : ∀ root, ¬ HasFile reg.families root file) :
    reg.rootOfFile file = .invalid := by
  have hs : reg.slotOfFile? file = none :=
    slotOfFile?_eq_none.2 fun f hf hp => hno f.root ⟨f, hf, rfl, hp⟩
  unfold rootOfFile
  rw [hs]
  simp

theorem rootOf_eq_iff (h : SoundTable allocates reg.families) (hv : root.isValid = true) :
    reg.rootOf pid = root ↔ HasMember reg.families root pid := by
  refine ⟨fun hroot => ?_, h.rootOf⟩
  by_cases hm : ∃ root, HasMember reg.families root pid
  · obtain ⟨owner, hm⟩ := hm
    rw [h.rootOf hm] at hroot
    exact hroot ▸ hm
  · rw [rootOf_eq_invalid (not_exists.1 hm)] at hroot
    exact absurd hroot.symm (Pid.isValid_iff.1 hv)

theorem rootOfFile_eq_iff (h : SoundTable allocates reg.families) (hv : root.isValid = true) :
    reg.rootOfFile file = root ↔ HasFile reg.families root file := by
  refine ⟨fun howner => ?_, h.rootOfFile⟩
  by_cases hm : ∃ root, HasFile reg.families root file
  · obtain ⟨holder, hm⟩ := hm
    rw [h.rootOfFile hm] at howner
    exact howner ▸ hm
  · rw [rootOfFile_eq_invalid (not_exists.1 hm)] at howner
    exact absurd howner.symm (Pid.isValid_iff.1 hv)

end Registry

end Containment
