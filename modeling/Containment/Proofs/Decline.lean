import Containment.Proofs.Exhaustion
import Containment.Proofs.Tenure

/-!
# Families without their root

While its root is not in it, a family takes no process but the root and no file at all, whichever
way they come: as a child, with a file that the family owns, or by a claim. So it only shrinks, in
one call (`exec_shrinks`) and in a run of calls before the root is back (`rootless_only_shrinks`).
-/

namespace Containment

variable {allocates : Allocator} {limits : Limits} {root owner pid : Pid} {file : FileId}

/-- What the family rooted at `root` has in `after` it had in `before`, its root apart. -/
structure Shrinks (root : Pid) (before after : List Family) : Prop where
  members : ∀ pid, HasMember after root pid → pid = root ∨ HasMember before root pid
  files : ∀ file, HasFile after root file → HasFile before root file

namespace Shrinks

variable {before mid after : List Family}

theorem refl : Shrinks root before before := ⟨fun _ => .inr, fun _ => id⟩

theorem trans (h : Shrinks root before mid) (h' : Shrinks root mid after) :
    Shrinks root before after where
  members pid hm := by
    rcases h'.members pid hm with hroot | hm
    · exact .inl hroot
    · exact h.members pid hm
  files file hf := h.files file (h'.files file hf)

end Shrinks

/-! ## Changes -/

namespace Change.Turns

variable {before after : List Family}

theorem live_of_enroll (ht : (Change.enroll pid owner).Turns allocates limits before after) :
    pid = owner ∨ HasMember before owner owner := by
  cases ht with
  | enroll valid fresh taken old new =>
    obtain ⟨hopen, -⟩ := Family.enroll_eq_ok taken
    refine hopen.imp_right fun hlive => ?_
    exact ⟨_, old.mem_iff.2 List.mem_cons_self, rfl, Family.isLive_iff.1 hlive⟩

theorem live_of_claim (ht : (Change.claim file owner).Turns allocates limits before after) :
    HasMember before owner owner := by
  cases ht with
  | claim valid fresh taken old new =>
    obtain ⟨hlive, -⟩ := Family.claim_eq_ok taken
    exact ⟨_, old.mem_iff.2 List.mem_cons_self, rfl, Family.isLive_iff.1 hlive⟩

theorem hasFile_of_dismiss (ht : (Change.dismiss pid).Turns allocates limits before after)
    (hf : HasFile after root file) : HasFile before root file := by
  cases ht with
  | dismiss held old new =>
    rw [HasFile.perm old, hasFile_cons]
    rcases HasFile.append.1 ((HasFile.perm new).1 hf) with ⟨g, hg, hroot, hfile⟩ | hrest
    · rw [Family.eq_of_mem_kept hg] at hroot hfile
      exact .inl ⟨hroot, hfile⟩
    · exact .inr hrest

theorem shrinks {change : Change} (ht : change.Turns allocates limits before after)
    (h : SoundTable allocates before) (hp : Present before)
    (hout : ¬ HasMember before root root) : Shrinks root before after := by
  cases change with
  | found owner =>
    refine ⟨fun x hx => ?_, fun y => ht.hasFile_found.1⟩
    rcases ht.hasMember_found.1 hx with ⟨hroot, hnew⟩ | hold
    · exact .inl (hnew.trans hroot.symm)
    · exact .inr hold
  | enroll pid owner =>
    refine ⟨fun x hx => ?_, fun y => (ht.hasFile_enroll h).1⟩
    rcases (ht.hasMember_enroll h).1 hx with ⟨hroot, hnew⟩ | hold
    · subst hroot hnew
      exact .inl (ht.live_of_enroll.resolve_right hout)
    · exact .inr hold
  | claim file owner =>
    refine ⟨fun x hx => .inr ((ht.hasMember_claim h).1 hx), fun y hy => ?_⟩
    rcases (ht.hasFile_claim h).1 hy with ⟨hroot, -⟩ | hold
    · subst hroot
      exact absurd ht.live_of_claim hout
    · exact hold
  | dismiss pid =>
    exact ⟨fun x hx => .inr ((ht.hasMember_dismiss h).1 hx).2, fun y => ht.hasFile_of_dismiss⟩
  | disown file =>
    exact ⟨fun x hx => .inr (ht.hasMember_disown.1 hx),
      fun y hy => ((ht.hasFile_disown h hp).1 hy).2⟩
  | reset =>
    cases ht
    exact ⟨fun x hx => by simp [HasMember] at hx, fun y hy => by simp [HasFile] at hy⟩

end Change.Turns

namespace Registry

variable {reg : Registry} {call : Call} {calls first second : List Call} {f : Family}

/-! ## Calls -/

theorem exec_shrinks (h : SoundTable allocates reg.families) (hp : Present reg.families)
    (hout : ¬ HasMember reg.families root root) (call : Call) :
    Shrinks root reg.families (reg.exec allocates call).registry.families := by
  cases exec_effect h call with
  | none same =>
    rw [same]
    exact .refl
  | change _ _ turns => exact turns.shrinks h hp hout
  | reclaim file owner mid _ _ freed next =>
    have hfreed : Shrinks root reg.families mid := freed.shrinks h hp hout
    -- the root is still away when the claimant is asked, as nobody comes in when a file is taken
    have hout' : ¬ HasMember mid root root := fun hm => hout (freed.hasMember_disown.1 hm)
    rcases next with hrefused | ⟨claimant, turns⟩
    · rw [hrefused]
      exact hfreed
    · exact hfreed.trans (turns.shrinks (freed.sound h) (freed.present h hp) hout')

theorem execAll_shrinks (h : Reachable allocates limits reg)
    (hout : ∀ first, first <+: calls →
      ¬ HasMember (reg.execAll allocates first).families root root) :
    Shrinks root reg.families (reg.execAll allocates calls).families := by
  induction calls generalizing reg with
  | nil => exact .refl
  | cons call calls ih =>
    have hnow := exec_shrinks h.sound h.present (hout [] List.nil_prefix) call
    have hlater := ih (h.call call) fun first hfirst =>
      hout (call :: first) (List.cons_prefix_cons.2 ⟨rfl, hfirst⟩)
    exact hnow.trans hlater

theorem execAll_prefix_shrinks (h : Reachable allocates limits reg) (hfirst : first <+: second)
    (hout : ∀ start, start <+: second →
      ¬ HasMember (reg.execAll allocates start).families root root) :
    Shrinks root (reg.execAll allocates first).families
      (reg.execAll allocates second).families := by
  obtain ⟨rest, rfl⟩ := hfirst
  rw [execAll_append]
  apply execAll_shrinks (h.execAll first)
  intro start hstart
  rw [← execAll_append]
  exact hout _ ((List.prefix_append_right_inj first).2 hstart)

theorem subset_of_shrinks {later : Registry} (h : SoundTable allocates reg.families)
    (h' : SoundTable allocates later.families) (hs : Shrinks root reg.families later.families)
    (hout : ¬ HasMember later.families root root) :
    later.members root ⊆ reg.members root ∧ later.files root ⊆ reg.files root := by
  constructor
  · intro pid hpid
    rw [h'.mem_members] at hpid
    rw [h.mem_members]
    refine (hs.members pid hpid).resolve_left fun heq => ?_
    subst heq
    exact hout hpid
  · intro file hfile
    rw [h'.mem_files] at hfile
    rw [h.mem_files]
    exact hs.files file hfile

/-! ## Processes that come with a file -/

theorem adopt_rootless (h : SoundTable allocates reg.families) (hv : pid.isValid = true)
    (hf : HasFile reg.families root file) (hout : ¬ HasMember reg.families root root) :
    ∃ slot : Slot, slot.family.root = root ∧ slot.family.isLive = false ∧
      ∀ allocates', reg.adopt allocates' pid file = reg.enrollAt allocates' slot pid := by
  obtain ⟨f, hmem, rfl, hx⟩ := hf
  obtain ⟨i, hi⟩ := List.getElem?_of_mem hmem
  refine ⟨⟨i, f⟩, rfl, ?_, fun allocates' => ?_⟩
  · rw [h.hasMember_root hmem] at hout
    rwa [← Bool.not_eq_true, Family.isLive_iff]
  · exact adopt_owned h hv hi hx allocates'

theorem answer_adopt_rootless (h : SoundTable allocates reg.families)
    (hf : HasFile reg.families root file) (hout : ¬ HasMember reg.families root root)
    (hne : pid ≠ root) : ∃ cause, (reg.adopt allocates pid file).answer = .error cause := by
  by_cases hv : pid.isValid = true
  · obtain ⟨slot, hroot, hdead, hadopt⟩ := adopt_rootless h hv hf hout
    rw [hadopt]
    exact ⟨_, (enrollAt_dead (hroot ▸ hne) hdead).2⟩
  · unfold adopt
    rw [if_pos (by simp [hv])]
    exact ⟨.invalidItem, rfl⟩

/-- A call adds no file to a family without its root, and no process but the root. In a run of calls
in which the root does not come back, each state leaves the family no more than every earlier one
did, and nobody else gets into it with one of its files. -/
theorem rootless_only_shrinks (h : Reachable allocates limits reg) (hf : f ∈ reg.families)
    (hdead : f.isLive = false) :
    (∀ call, ∀ g ∈ (reg.exec allocates call).registry.families, g.root = f.root →
      g.files.items ⊆ f.files.items ∧
        ∀ pid ∈ g.members.items, pid = f.root ∨ pid ∈ f.members.items) ∧
    ∀ calls : List Call,
      (∀ first, first <+: calls → f.root ∉ (reg.execAll allocates first).members f.root) →
      let later := reg.execAll allocates calls
      (∀ first, first <+: calls →
        later.members f.root ⊆ (reg.execAll allocates first).members f.root ∧
          later.files f.root ⊆ (reg.execAll allocates first).files f.root) ∧
      ∀ file ∈ later.files f.root, ∀ pid, pid ≠ f.root →
        ∃ cause, (later.adopt allocates pid file).answer = .error cause := by
  have hs := h.sound
  have hout : ¬ HasMember reg.families f.root f.root := by
    rwa [hs.hasMember_root hf, ← Family.isLive_iff, Bool.not_eq_true]
  constructor
  · intro call g hg hroot
    obtain ⟨hmembers, hfiles⟩ := exec_shrinks hs h.present hout call
    constructor
    · intro file hfile
      exact (hs.hasFile_root hf).1 (hfiles file ⟨g, hg, hroot, hfile⟩)
    · intro pid hpid
      exact (hmembers pid ⟨g, hg, hroot, hpid⟩).imp_right (hs.hasMember_root hf).1
  · intro calls hnever later
    have hlater : SoundTable allocates later.families := (h.execAll calls).sound
    have hgone (first : List Call) (hfirst : first <+: calls) :
        ¬ HasMember (reg.execAll allocates first).families f.root f.root := by
      rw [← (h.execAll first).sound.mem_members]
      exact hnever first hfirst
    have hnow : ¬ HasMember later.families f.root f.root := hgone calls (List.prefix_refl calls)
    constructor
    · intro first hfirst
      have hshrinks := execAll_prefix_shrinks h hfirst hgone
      exact subset_of_shrinks (h.execAll first).sound hlater hshrinks hnow
    · intro file hfile pid hne
      rw [hlater.mem_files] at hfile
      exact answer_adopt_rootless hlater hfile hnow hne

/-- The family of 20 has lost its root. It does not take 23, 24 or file 9, and is left by 21 and by
file 8. File 7 stays with it, as 22 is still there when 30 claims the file. -/
theorem rootless_only_shrinks_refusing :
    let reg := (empty {}).execAll (fun _ => true)
      [.found ⟨20⟩ .invalid .noRestriction, .enroll ⟨21⟩ ⟨20⟩, .enroll ⟨22⟩ ⟨20⟩, .claim ⟨7⟩ ⟨20⟩,
        .claim ⟨8⟩ ⟨20⟩, .dismiss ⟨20⟩]
    let first : List Call := [.enroll ⟨23⟩ ⟨20⟩, .claim ⟨9⟩ ⟨21⟩, .adopt ⟨24⟩ ⟨7⟩]
    let second : List Call := first ++
      [.found ⟨30⟩ .invalid .noRestriction, .dismiss ⟨21⟩, .disown ⟨8⟩, .claim ⟨7⟩ ⟨30⟩]
    let earlier := reg.execAll (fun _ => true) first
    let later := reg.execAll (fun _ => true) second
    Reachable (fun _ => true) {} reg ∧
      earlier.members ⟨20⟩ = [⟨21⟩, ⟨22⟩] ∧ earlier.files ⟨20⟩ = [⟨7⟩, ⟨8⟩] ∧
      later.members ⟨20⟩ = [⟨22⟩] ∧ later.files ⟨20⟩ = [⟨7⟩] ∧
      later.members ⟨20⟩ ⊆ earlier.members ⟨20⟩ ∧
      ∃ cause, (later.adopt (fun _ => true) ⟨24⟩ ⟨7⟩).answer = .error cause := by
  intro reg first second earlier later
  have h : Reachable (fun _ => true) {} reg := Reachable.execAll _ .empty
  have hfamily : ∃ f ∈ reg.families, f.root = ⟨20⟩ ∧ f.isLive = false := by decide
  have hnever : ∀ start ∈ second.inits,
      ⟨20⟩ ∉ (reg.execAll (fun _ => true) start).members ⟨20⟩ := by decide
  obtain ⟨f, hf, hroot, hdead⟩ := hfamily
  have hrun := (rootless_only_shrinks h hf hdead).2 second
  rw [hroot] at hrun
  obtain ⟨hsubset, hadopt⟩ := hrun
    fun start hstart => hnever start ((List.mem_inits start second).2 hstart)
  have hfiles : later.files ⟨20⟩ = [⟨7⟩] := by decide
  refine ⟨h, by decide, by decide, by decide, hfiles, (hsubset first ?_).1, ?_⟩
  · exact List.prefix_append first _
  · exact hadopt ⟨7⟩ (by rw [hfiles]; exact List.mem_singleton_self _) ⟨24⟩ (by decide)

end Registry

end Containment
