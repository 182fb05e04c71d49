import Containment.Proofs.Reclaim
import Mathlib.Data.List.Infix

/-!
# Files of families that have processes

A file changes hands only when a claim takes it from a family without processes. So a family keeps
each of its files as long as a process is in it, whoever else is founded, collected or moved and
even without its root, unless the file is given up or all families go (`owner_stays`).
-/

namespace Containment

variable {allocates : Allocator} {limits : Limits} {root : Pid} {file : FileId}

def Staffed (families : List Family) (root : Pid) : Prop := ∃ pid, HasMember families root pid

/-! ## What a change leaves to its families -/

theorem HasFile.append {fs gs : List Family} :
    HasFile (fs ++ gs) root file ↔ HasFile fs root file ∨ HasFile gs root file := by
  simp only [HasFile, List.mem_append, or_and_right, exists_or]

theorem Change.Turns.hasFile_dismiss {before after : List Family} {pid : Pid}
    (ht : (Change.dismiss pid).Turns allocates limits before after)
    (h : SoundTable allocates before) (hs : Staffed before root → Staffed after root)
    (hf : HasFile before root file) : HasFile after root file := by
  cases ht with
  | @dismiss _ _ rest f _ held old new =>
    rw [HasFile.perm new, HasFile.append]
    rcases hasFile_cons.1 ((HasFile.perm old).1 hf) with ⟨hroot, hfile⟩ | hrest
    · have hleft : Staffed before root := ⟨pid, f, old.mem_iff.2 List.mem_cons_self, hroot, held⟩
      obtain ⟨x, g, hg, hroot', -⟩ := hs hleft
      have hkept : g ∈ (f.dismiss pid).kept := by
        refine (List.mem_append.1 (new.mem_iff.1 hg)).resolve_right fun hbeside => ?_
        exact ((SoundTable.cons_iff.1 (h.perm old)).2.1 g hbeside).roots (hroot.trans hroot'.symm)
      rw [Family.eq_of_mem_kept hkept] at hkept
      exact .inl ⟨_, hkept, hroot, hfile⟩
    · exact .inr hrest

theorem Change.Turns.hasFile_stays {change : Change} {before after : List Family}
    (ht : change.Turns allocates limits before after) (h : SoundTable allocates before)
    (hp : Present before) (hreset : change ≠ .reset) (hdisown : change ≠ .disown file)
    (hs : Staffed before root → Staffed after root) (hf : HasFile before root file) :
    HasFile after root file := by
  cases change with
  | found => exact ht.hasFile_found.2 hf
  | enroll => exact (ht.hasFile_enroll h).2 hf
  | claim => exact (ht.hasFile_claim h).2 (.inr hf)
  | dismiss => exact ht.hasFile_dismiss h hs hf
  | disown other =>
    refine (ht.hasFile_disown h hp).2 ⟨?_, hf⟩
    intro heq
    subst heq
    exact hdisown rfl
  | reset => exact absurd rfl hreset

theorem Change.Turns.not_hasFile_claim {before after : List Family} {owner : Pid}
    (ht : (Change.claim file owner).Turns allocates limits before after)
    (h : SoundTable allocates before) : ¬ HasFile before root file := by
  cases ht with
  | claim valid fresh taken old new =>
    obtain ⟨-, -, -, hnew, -⟩ := (SoundTable.cons_iff.1 (h.perm old)).1.claim valid taken
    rw [HasFile.perm old, hasFile_cons]
    rintro (⟨-, hx⟩ | ⟨g, hg, -, hx⟩)
    · exact hnew hx
    · exact fresh g hg hx

namespace Registry

variable {reg : Registry} {call : Call} {owner : Pid}

/-! ## Calls -/

theorem frees_of_staffed (h : SoundTable allocates reg.families) (hs : Staffed reg.families root)
    (hf : HasFile reg.families root file) : reg.frees file owner = false := by
  obtain ⟨pid, hpid⟩ := hs
  rw [← Bool.not_eq_true]
  exact fun hfrees => not_hasMember_of_frees h hfrees hf hpid

theorem claim_of_staffed (h : SoundTable allocates reg.families) (hs : Staffed reg.families root)
    (hf : HasFile reg.families root file) (owner : Pid) :
    (reg.claim allocates file owner).answer ≠ .ok () := by
  intro hok
  rcases claim_cases h _ file owner with ⟨cause, ha, -⟩ | ⟨slot, -, hgrant⟩
  · rw [hok] at ha
    cases ha
  cases hgrant with
  | granted _ turns =>
    rw [freed, frees_of_staffed h hs hf] at turns
    exact turns.not_hasFile_claim h hf
  | refused cause _ ha =>
    rw [hok] at ha
    cases ha

theorem Makes.ne_of_ne {change : Change} (hm : Makes call change) (hreset : call ≠ .reset)
    (hdisown : call ≠ .disown file) : change ≠ .reset ∧ change ≠ .disown file := by
  cases hm with
  | disown other =>
    refine ⟨nofun, fun heq => ?_⟩
    cases heq
    exact hdisown rfl
  | reset => exact absurd rfl hreset
  | _ => exact ⟨nofun, nofun⟩

/-- A family keeps a file unless the file is given up, the last process takes the family with it, or
a claim takes the file from it when it has none. -/
theorem hasFile_exec (h : SoundTable allocates reg.families) (hp : Present reg.families)
    (hcall : call ≠ .reset ∧ call ≠ .disown file)
    (hs : Staffed reg.families root → Staffed (reg.exec allocates call).registry.families root)
    (hclaim : Staffed reg.families root ∨ ∀ owner, call ≠ .claim file owner)
    (hf : HasFile reg.families root file) :
    HasFile (reg.exec allocates call).registry.families root file := by
  cases exec_effect h call with
  | none same => rwa [same]
  | change _ makes turns =>
    obtain ⟨hreset, hdisown⟩ := makes.ne_of_ne hcall.1 hcall.2
    exact turns.hasFile_stays h hp hreset hdisown hs hf
  | reclaim other owner mid claims empty freed next =>
    have hne : file ≠ other := by
      intro heq
      subst heq
      rcases hclaim with ⟨pid, hpid⟩ | hclaim
      · exact empty root pid hf hpid
      · exact hclaim owner claims
    have hmid : HasFile mid root file := (freed.hasFile_disown h hp).2 ⟨hne, hf⟩
    rcases next with hrefused | ⟨claimant, turns⟩
    · rwa [hrefused]
    · exact (turns.hasFile_claim (freed.sound h)).2 (.inr hmid)

/-! ## Runs of calls -/

theorem hasFile_execAll {calls : List Call} (h : Reachable allocates limits reg)
    (hcalls : ∀ call ∈ calls, call ≠ .reset ∧ call ≠ .disown file)
    (hs : ∀ first, first <+: calls → Staffed (reg.execAll allocates first).families root)
    (hf : HasFile reg.families root file) :
    HasFile (reg.execAll allocates calls).families root file := by
  induction calls generalizing reg with
  | nil => exact hf
  | cons call calls ih =>
    obtain ⟨hnow, hlater⟩ := List.forall_mem_cons.1 hcalls
    have hstep : HasFile (reg.exec allocates call).registry.families root file :=
      hasFile_exec h.sound h.present hnow (fun _ => hs [call] (List.prefix_append _ calls))
        (.inl (hs [] List.nil_prefix)) hf
    exact ih (h.call call) hlater
      (fun first hfirst => hs (call :: first) (List.cons_prefix_cons.2 ⟨rfl, hfirst⟩)) hstep

/-! ## What can be asked -/

theorem memberCount_pos_iff (h : SoundTable allocates reg.families) :
    0 < reg.memberCount root ↔ Staffed reg.families root := by
  constructor
  · intro hpos
    unfold memberCount at hpos
    cases hs : reg.slotOfRoot? root with
    | none => simp [hs] at hpos
    | some slot =>
      obtain ⟨hi, hroot⟩ := of_slotOfRoot? hs
      rw [hs] at hpos
      obtain ⟨pid, hpid⟩ := List.length_pos_iff_exists_mem.1 hpos
      exact ⟨pid, _, List.mem_of_getElem? hi, hroot, hpid⟩
  · intro hs
    obtain ⟨pid, f, hf, rfl, hpid⟩ := hs
    obtain ⟨i, hi⟩ := List.getElem?_of_mem hf
    rw [memberCount, h.slotOfRoot? hi]
    exact List.length_pos_iff_exists_mem.2 ⟨pid, hpid⟩

/-- While a process is in the family rooted at `root`, no call takes a file of this family away but
those that give it up, and nobody's claim of the file succeeds. -/
theorem owner_stays (h : Reachable allocates limits reg) (hroot : root.isValid = true)
    (howner : reg.rootOfFile file = root) {calls : List Call}
    (hcalls : ∀ call ∈ calls, call ≠ .reset ∧ call ≠ .disown file)
    (hstaffed : ∀ first, first <+: calls → 0 < (reg.execAll allocates first).memberCount root) :
    ∀ first, first <+: calls →
      (reg.execAll allocates first).rootOfFile file = root ∧
        ∀ owner, ((reg.execAll allocates first).claim allocates file owner).answer ≠ .ok () := by
  have hs (first : List Call) (hfirst : first <+: calls) :
      Staffed (reg.execAll allocates first).families root :=
    (memberCount_pos_iff (h.execAll first).sound).1 (hstaffed first hfirst)
  intro first hfirst
  have hsound := (h.execAll first).sound
  have hfile : HasFile (reg.execAll allocates first).families root file := by
    refine hasFile_execAll h (fun call hc => hcalls call (hfirst.subset hc)) ?_ ?_
    · exact fun start hstart => hs start (hstart.trans hfirst)
    · exact (rootOfFile_eq_iff h.sound hroot).1 howner
  exact ⟨(rootOfFile_eq_iff hsound hroot).2 hfile, claim_of_staffed hsound (hs first hfirst) hfile⟩

/-- The root leaves, the family moves to another slot, and two claims are made, one of them through
the root that has left. -/
theorem owner_stays_rootless :
    let reg := (empty {}).execAll (fun _ => true)
      [.found ⟨5⟩ .invalid .noRestriction, .found ⟨10⟩ .invalid .noRestriction, .claim ⟨7⟩ ⟨10⟩,
        .enroll ⟨11⟩ ⟨10⟩]
    let calls : List Call :=
      [.dismiss ⟨10⟩, .dismiss ⟨5⟩, .found ⟨20⟩ .invalid .noRestriction, .claim ⟨7⟩ ⟨20⟩,
        .claim ⟨7⟩ ⟨10⟩]
    Reachable (fun _ => true) {} reg ∧ reg.rootOfFile ⟨7⟩ = ⟨10⟩ ∧
      (∀ first ∈ calls.inits, 0 < (reg.execAll (fun _ => true) first).memberCount ⟨10⟩) ∧
      (reg.execAll (fun _ => true) calls).families.map Family.root = [⟨10⟩, ⟨20⟩] ∧
      (reg.execAll (fun _ => true) calls).rootOfFile ⟨7⟩ = ⟨10⟩ := by
  intro reg calls
  have h : Reachable (fun _ => true) {} reg := Reachable.execAll _ .empty
  have howner : reg.rootOfFile ⟨7⟩ = ⟨10⟩ := by decide
  have hstaffed : ∀ first ∈ calls.inits,
      0 < (reg.execAll (fun _ => true) first).memberCount ⟨10⟩ := by decide
  have hcalls : ∀ call ∈ calls, call ≠ .reset ∧ call ≠ .disown ⟨7⟩ := by decide
  have hstays := owner_stays h (by decide) howner hcalls
    (fun first hfirst => hstaffed first ((List.mem_inits first calls).2 hfirst))
  exact ⟨h, howner, hstaffed, by decide, (hstays calls (List.prefix_refl calls)).1⟩

end Registry

end Containment
