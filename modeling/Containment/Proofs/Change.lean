import Containment.Proofs.Table

/-!
# Changes of a table

Whatever a call does to the table is a run of changes: a family is founded, one family takes or
loses a process or a file, or all families go. `Change.Turns` says what a change needs and what it
leaves, up to the order of the slots. Each change keeps a table sound (`Change.Turns.sound`).
-/

namespace Containment

variable {allocates : Allocator} {limits : Limits}

/-- What settling leaves of a family that has lost something. -/
def Family.kept (f : Family) : List Family := if f.isSpent then [] else [f]

theorem Family.eq_of_mem_kept {f g : Family} (h : g ∈ f.kept) : g = f := by
  unfold kept at h
  split at h
  · cases h
  · exact List.mem_singleton.1 h

inductive Change where
  | found (root : Pid)
  | enroll (pid root : Pid)
  | claim (file : FileId) (root : Pid)
  | dismiss (pid : Pid)
  | disown (file : FileId)
  | reset

inductive Change.Turns (allocates : Allocator) (limits : Limits) :
    Change → List Family → List Family → Prop
  | found {before : List Family} {f : Family} (valid : f.root.isValid = true)
    (fresh : ∀ g ∈ before, g.root ≠ f.root ∧ f.root ∉ g.members.items)
    (room : before.length < limits.maxFamilies.toNat)
    (founded : Family.founded allocates f.root f.origin f.policy limits.maxMembers.toNat
      limits.maxFiles.toNat = .ok f) :
    Turns allocates limits (.found f.root) before (before ++ [f])
  | enroll {before after rest : List Family} {f g : Family} {pid : Pid}
    (valid : pid.isValid = true) (fresh : ∀ other ∈ rest, pid ∉ other.members.items)
    (taken : f.enroll allocates pid = .ok g)
    (old : before.Perm (f :: rest)) (new : after.Perm (g :: rest)) :
    Turns allocates limits (.enroll pid f.root) before after
  | claim {before after rest : List Family} {f g : Family} {file : FileId}
    (valid : file.isValid = true) (fresh : ∀ other ∈ rest, file ∉ other.files.items)
    (taken : f.claim allocates file = .ok g)
    (old : before.Perm (f :: rest)) (new : after.Perm (g :: rest)) :
    Turns allocates limits (.claim file f.root) before after
  | dismiss {before after rest : List Family} {f : Family} {pid : Pid}
    (held : pid ∈ f.members.items)
    (old : before.Perm (f :: rest)) (new : after.Perm ((f.dismiss pid).kept ++ rest)) :
    Turns allocates limits (.dismiss pid) before after
  | disown {before after rest : List Family} {f : Family} {file : FileId}
    (held : file ∈ f.files.items)
    (old : before.Perm (f :: rest)) (new : after.Perm ((f.disown file).kept ++ rest)) :
    Turns allocates limits (.disown file) before after
  | reset {before : List Family} : Turns allocates limits .reset before []

/-! ## Every change keeps a table sound -/

namespace SoundTable

variable {rest : List Family} {f g : Family} {pid : Pid} {file : FileId}

theorem of_kept (h : SoundTable allocates (f :: rest)) : SoundTable allocates (f.kept ++ rest) := by
  unfold Family.kept
  split
  · exact (cons_iff.1 h).2.2
  · exact h

theorem enroll (h : SoundTable allocates (f :: rest)) (hv : pid.isValid = true)
    (hfresh : ∀ other ∈ rest, pid ∉ other.members.items) (ht : f.enroll allocates pid = .ok g) :
    SoundTable allocates (g :: rest) := by
  obtain ⟨hf, ha, hr⟩ := cons_iff.1 h
  obtain ⟨hg, hroot, hfiles, -, hmem⟩ := hf.enroll hv ht
  refine cons_iff.2 ⟨hg, fun other ho => ⟨hroot ▸ (ha other ho).roots, ?_, ?_⟩, hr⟩
  · intro x hx hx'
    rcases (hmem x).1 hx with rfl | hx
    · exact hfresh other ho hx'
    · exact (ha other ho).members hx hx'
  · rw [hfiles]
    exact (ha other ho).files

theorem claim (h : SoundTable allocates (f :: rest)) (hv : file.isValid = true)
    (hfresh : ∀ other ∈ rest, file ∉ other.files.items) (ht : f.claim allocates file = .ok g) :
    SoundTable allocates (g :: rest) := by
  obtain ⟨hf, ha, hr⟩ := cons_iff.1 h
  obtain ⟨hg, hroot, hmembers, -, hmem⟩ := hf.claim hv ht
  refine cons_iff.2 ⟨hg, fun other ho => ⟨hroot ▸ (ha other ho).roots, ?_, ?_⟩, hr⟩
  · rw [hmembers]
    exact (ha other ho).members
  · intro x hx hx'
    rcases (hmem x).1 hx with rfl | hx
    · exact hfresh other ho hx'
    · exact (ha other ho).files hx hx'

theorem dismiss (h : SoundTable allocates (f :: rest)) :
    SoundTable allocates (f.dismiss pid :: rest) := by
  obtain ⟨hf, ha, hr⟩ := cons_iff.1 h
  refine cons_iff.2 ⟨hf.dismiss, fun other ho => ⟨(ha other ho).roots, ?_, (ha other ho).files⟩, hr⟩
  intro x hx hx'
  exact (ha other ho).members (hf.mem_dismiss.1 hx).2 hx'

theorem disown (h : SoundTable allocates (f :: rest)) :
    SoundTable allocates (f.disown file :: rest) := by
  obtain ⟨hf, ha, hr⟩ := cons_iff.1 h
  refine cons_iff.2
    ⟨hf.disown, fun other ho => ⟨(ha other ho).roots, (ha other ho).members, ?_⟩, hr⟩
  intro x hx hx'
  exact (ha other ho).files (hf.mem_disown.1 hx).2 hx'

theorem found (h : SoundTable allocates rest) (hv : f.root.isValid = true)
    (hfresh : ∀ other ∈ rest, other.root ≠ f.root ∧ f.root ∉ other.members.items) {m n : Nat}
    (hf : Family.founded allocates f.root f.origin f.policy m n = .ok f) :
    SoundTable allocates (f :: rest) := by
  have hs := Family.Sound.founded hv hf
  obtain ⟨-, heq⟩ := Family.founded_eq_ok hf
  refine cons_iff.2 ⟨hs, fun other ho => ⟨(hfresh other ho).1.symm, ?_, ?_⟩, h⟩
  · intro x hx hx'
    rw [heq] at hx
    rw [List.mem_singleton.1 hx] at hx'
    exact (hfresh other ho).2 hx'
  · rw [heq]
    intro x hx
    cases hx

end SoundTable

theorem Change.Turns.sound {change : Change} {before after : List Family}
    (ht : change.Turns allocates limits before after) (h : SoundTable allocates before) :
    SoundTable allocates after := by
  cases ht with
  | found valid fresh _ founded =>
    exact (h.found valid fresh founded).perm (List.perm_append_singleton _ _).symm
  | enroll valid fresh taken old new => exact ((h.perm old).enroll valid fresh taken).perm new.symm
  | claim valid fresh taken old new => exact ((h.perm old).claim valid fresh taken).perm new.symm
  | dismiss _ old new => exact (h.perm old).dismiss.of_kept.perm new.symm
  | disown _ old new => exact (h.perm old).disown.of_kept.perm new.symm
  | reset => exact .nil

/-! ## No family is left over -/

/-- No family is in the table that nothing keeps there. -/
def Present (families : List Family) : Prop := ∀ f ∈ families, f.isSpent = false

theorem Family.not_mem_of_isSpent {f : Family} {pid : Pid} (h : f.isSpent = true) :
    pid ∉ f.members.items := by
  unfold isSpent at h
  rw [Bool.and_eq_true] at h
  exact BoundedSet.isEmpty_iff.1 h.1 pid

theorem Family.isSpent_of_mem {f : Family} {pid : Pid} (h : pid ∈ f.members.items) :
    f.isSpent = false := by
  rw [← Bool.not_eq_true]
  exact fun hs => not_mem_of_isSpent hs h

theorem present_kept {f : Family} {rest : List Family} (h : Present rest) :
    Present (f.kept ++ rest) := by
  unfold Family.kept
  intro g hg
  split at hg
  · exact h g hg
  · rename_i hs
    rcases List.mem_cons.1 hg with rfl | hg
    · simpa using hs
    · exact h g hg

theorem Change.Turns.present {change : Change} {before after : List Family}
    (ht : change.Turns allocates limits before after) (h : SoundTable allocates before)
    (hp : Present before) : Present after := by
  have beside : ∀ {f : Family} {rest : List Family}, before.Perm (f :: rest) → Present rest :=
    fun old g hg => hp g (old.mem_iff.2 (List.mem_cons_of_mem _ hg))
  have joined : ∀ {g : Family} {rest : List Family} (pid : Pid), pid ∈ g.members.items →
      after.Perm (g :: rest) → Present rest → Present after := by
    intro g rest pid hpid new hr x hx
    rcases List.mem_cons.1 (new.mem_iff.1 hx) with rfl | hx
    · exact Family.isSpent_of_mem hpid
    · exact hr x hx
  cases ht with
  | @found _ f valid fresh _ founded =>
    obtain ⟨-, heq⟩ := Family.founded_eq_ok founded
    refine joined f.root ?_ (List.perm_append_singleton _ _) hp
    rw [heq]
    exact List.mem_singleton_self _
  | enroll valid _ taken old new =>
    obtain ⟨-, -, -, -, hmem⟩ := ((SoundTable.cons_iff.1 (h.perm old)).1).enroll valid taken
    exact joined _ ((hmem _).2 (.inl rfl)) new (beside old)
  | @claim _ _ _ f _ _ _ _ taken old new =>
    obtain ⟨hlive, files, -, rfl⟩ := Family.claim_eq_ok taken
    refine joined f.root ?_ new (beside old)
    exact Family.isLive_iff.1 hlive
  | dismiss _ old new =>
    exact fun g hg => present_kept (beside old) g (new.mem_iff.1 hg)
  | disown _ old new =>
    exact fun g hg => present_kept (beside old) g (new.mem_iff.1 hg)
  | reset => simp [Present]

/-! ## Who is where after a change -/

section
variable {rest : List Family} {f : Family} {root pid : Pid} {file : FileId}

theorem hasMember_cons : HasMember (f :: rest) root pid ↔
    (f.root = root ∧ pid ∈ f.members.items) ∨ HasMember rest root pid := by
  simp [HasMember]

theorem hasFile_cons : HasFile (f :: rest) root file ↔
    (f.root = root ∧ file ∈ f.files.items) ∨ HasFile rest root file := by
  simp [HasFile]

theorem hasMember_kept : HasMember (f.kept ++ rest) root pid ↔ HasMember (f :: rest) root pid := by
  unfold Family.kept
  split
  · rename_i h
    simp [hasMember_cons, Family.not_mem_of_isSpent h]
  · rfl

theorem hasFile_kept_disown {x : FileId} (hf : f.isSpent = false) :
    HasFile ((f.disown file).kept ++ rest) root x ↔ HasFile (f.disown file :: rest) root x := by
  unfold Family.kept
  split
  · rename_i h
    -- only the loss of its last file can have made it fit for collection
    have hempty : (f.disown file).files.isEmpty = true := by
      unfold Family.isSpent at h hf
      cases hpolicy : f.policy <;> simp_all [Family.disown]
    simp [hasFile_cons, BoundedSet.isEmpty_iff.1 hempty]
  · rfl

end

namespace Change.Turns

variable {before after : List Family} {root owner pid x : Pid} {file : FileId}

theorem hasMember_found (ht : (Change.found owner).Turns allocates limits before after) :
    HasMember after root x ↔ (root = owner ∧ x = owner) ∨ HasMember before root x := by
  cases ht with
  | @found _ f valid fresh room founded =>
    obtain ⟨-, heq⟩ := Family.founded_eq_ok founded
    have hitems : f.members.items = [f.root] := by
      rw [heq]
      rfl
    rw [HasMember.perm (List.perm_append_singleton f before), hasMember_cons, hitems,
      List.mem_singleton, eq_comm (a := f.root)]

theorem hasMember_enroll (h : SoundTable allocates before)
    (ht : (Change.enroll pid owner).Turns allocates limits before after) :
    HasMember after root x ↔ (root = owner ∧ x = pid) ∨ HasMember before root x := by
  cases ht with
  | @enroll _ _ rest f g _ valid fresh taken old new =>
    obtain ⟨-, hroot, -, -, hmem⟩ := ((SoundTable.cons_iff.1 (h.perm old)).1).enroll valid taken
    rw [HasMember.perm new, HasMember.perm old, hasMember_cons, hasMember_cons, hroot, hmem]
    grind

theorem hasMember_claim (h : SoundTable allocates before)
    (ht : (Change.claim file owner).Turns allocates limits before after) :
    HasMember after root x ↔ HasMember before root x := by
  cases ht with
  | claim valid fresh taken old new =>
    obtain ⟨-, hroot, hmembers, -⟩ := ((SoundTable.cons_iff.1 (h.perm old)).1).claim valid taken
    rw [HasMember.perm new, HasMember.perm old, hasMember_cons, hasMember_cons, hroot, hmembers]

theorem hasFile_found (ht : (Change.found owner).Turns allocates limits before after) :
    HasFile after root file ↔ HasFile before root file := by
  cases ht with
  | @found _ f valid fresh room founded =>
    obtain ⟨-, heq⟩ := Family.founded_eq_ok founded
    have hitems : f.files.items = [] := by
      rw [heq]
      rfl
    rw [HasFile.perm (List.perm_append_singleton f before), hasFile_cons, hitems]
    simp

theorem hasFile_enroll (h : SoundTable allocates before)
    (ht : (Change.enroll pid owner).Turns allocates limits before after) :
    HasFile after root file ↔ HasFile before root file := by
  cases ht with
  | enroll valid fresh taken old new =>
    obtain ⟨-, hroot, hfiles, -⟩ := ((SoundTable.cons_iff.1 (h.perm old)).1).enroll valid taken
    rw [HasFile.perm new, HasFile.perm old, hasFile_cons, hasFile_cons, hroot, hfiles]

theorem hasFile_claim {y : FileId} (h : SoundTable allocates before)
    (ht : (Change.claim file owner).Turns allocates limits before after) :
    HasFile after root y ↔ (root = owner ∧ y = file) ∨ HasFile before root y := by
  cases ht with
  | claim valid fresh taken old new =>
    obtain ⟨-, hroot, -, -, hmem⟩ := ((SoundTable.cons_iff.1 (h.perm old)).1).claim valid taken
    rw [HasFile.perm new, HasFile.perm old, hasFile_cons, hasFile_cons, hroot, hmem]
    grind

theorem hasMember_dismiss (h : SoundTable allocates before)
    (ht : (Change.dismiss pid).Turns allocates limits before after) :
    HasMember after root x ↔ x ≠ pid ∧ HasMember before root x := by
  cases ht with
  | @dismiss _ _ rest f _ held old new =>
    obtain ⟨hf, ha, -⟩ := SoundTable.cons_iff.1 (h.perm old)
    have hout : HasMember rest root x → x ≠ pid := by
      intro hm hxp
      obtain ⟨other, ho, -, hx⟩ := hm
      subst hxp
      exact (ha other ho).members held hx
    rw [HasMember.perm new, HasMember.perm old, hasMember_kept, hasMember_cons, hasMember_cons,
      hf.mem_dismiss]
    show (f.root = root ∧ x ≠ pid ∧ _) ∨ _ ↔ _
    grind

theorem hasMember_disown (ht : (Change.disown file).Turns allocates limits before after) :
    HasMember after root x ↔ HasMember before root x := by
  cases ht with
  | disown held old new =>
    rw [HasMember.perm new, HasMember.perm old, hasMember_kept, hasMember_cons, hasMember_cons]
    rfl

theorem not_hasFile (h : SoundTable allocates before)
    (ht : (Change.disown file).Turns allocates limits before after) (root : Pid) :
    ¬ HasFile after root file := by
  cases ht with
  | @disown _ _ rest f _ held old new =>
    obtain ⟨hf, ha, -⟩ := SoundTable.cons_iff.1 (h.perm old)
    intro hm
    obtain ⟨g, hg, -, hx⟩ := hm
    rcases List.mem_append.1 (new.mem_iff.1 hg) with hg | hg
    · rw [Family.eq_of_mem_kept hg] at hx
      exact (hf.mem_disown.1 hx).1 rfl
    · exact (ha g hg).files held hx

theorem hasFile_disown {y : FileId} (h : SoundTable allocates before) (hp : Present before)
    (ht : (Change.disown file).Turns allocates limits before after) :
    HasFile after root y ↔ y ≠ file ∧ HasFile before root y := by
  cases ht with
  | @disown _ _ rest f _ held old new =>
    obtain ⟨hf, ha, -⟩ := SoundTable.cons_iff.1 (h.perm old)
    have hout : HasFile rest root y → y ≠ file := by
      intro hm hyf
      obtain ⟨other, ho, -, hy⟩ := hm
      subst hyf
      exact (ha other ho).files held hy
    rw [HasFile.perm new, HasFile.perm old,
      hasFile_kept_disown (hp f (old.mem_iff.2 List.mem_cons_self)), hasFile_cons, hasFile_cons,
      hf.mem_disown]
    show (f.root = root ∧ y ≠ file ∧ _) ∨ _ ↔ _
    grind

/-! ## Families beside a change -/

variable {f : Family}

theorem beside_claim (ht : (Change.claim file owner).Turns allocates limits before after)
    (hf : f ∈ before) (hother : f.root ≠ owner) : f ∈ after := by
  cases ht with
  | claim _ _ _ old new =>
    rcases List.mem_cons.1 (old.mem_iff.1 hf) with rfl | hf
    · exact absurd rfl hother
    · exact new.mem_iff.2 (List.mem_cons_of_mem _ hf)

theorem beside_disown (ht : (Change.disown file).Turns allocates limits before after)
    (hf : f ∈ before) (hother : file ∉ f.files.items) : f ∈ after := by
  cases ht with
  | disown held old new =>
    rcases List.mem_cons.1 (old.mem_iff.1 hf) with rfl | hf
    · exact absurd held hother
    · exact new.mem_iff.2 (List.mem_append_right _ hf)

end Change.Turns

end Containment
