import Containment.Proofs.Capacity
import Containment.Proofs.Reclaim
import Containment.Proofs.Removals

/-!
# Losses of one family

A removal takes a process or a file from the family that has it, and no other family is concerned,
whatever slot it is left in. So everybody else stays where they are. Only a family that goes with
its last process takes more along, namely the files that it had (`touches_one_family`).
-/

namespace Containment

variable {allocates : Allocator} {limits : Limits} {reg : Registry} {f g : Family}
variable {root pid : Pid} {file : FileId} {removal : Removal}

/-! ## Families that go -/

namespace Family

/-- `pid` is the last process, and no file keeps the family without processes. -/
def EndsWith (f : Family) (pid : Pid) : Prop :=
  f.members.items = [pid] ∧ f.policy = .noRestriction

theorem root_lose : (f.lose removal).root = f.root := by cases removal <;> rfl

theorem mem_kept : g ∈ f.kept ↔ f.isSpent = false ∧ g = f := by
  cases h : f.isSpent with
  | true => simp [kept_of_isSpent h]
  | false => simp [kept_of_not_isSpent h]

end Family

namespace Registry

/-! ## What is left of the table -/

theorem mem_remove (h : Reachable allocates limits reg) (removal : Removal) :
    g ∈ (reg.remove removal).registry.families ↔
      ∃ f ∈ reg.families, (f.lose removal).isSpent = false ∧ g = f.lose removal := by
  rw [(perm_remove h.sound h.present removal).mem_iff, List.mem_flatMap]
  simp only [Family.mem_kept]

theorem mem_remove_of_not_holds (h : Reachable allocates limits reg) (removal : Removal)
    (hf : f ∈ reg.families) (hno : ¬ f.Holds removal) :
    f ∈ (reg.remove removal).registry.families := by
  rw [mem_remove h removal]
  refine ⟨f, hf, ?_, ?_⟩
  · rw [Family.lose_of_not_holds hno]
    exact h.present f hf
  · rw [Family.lose_of_not_holds hno]

theorem eq_of_mem_remove (h : Reachable allocates limits reg) (removal : Removal)
    (hg : g ∈ (reg.remove removal).registry.families) :
    g ∈ reg.families ∨ ∃ f ∈ reg.families, f.Holds removal ∧ g = f.lose removal := by
  obtain ⟨f, hf, -, rfl⟩ := (mem_remove h removal).1 hg
  by_cases hholds : f.Holds removal
  · exact .inr ⟨f, hf, hholds, rfl⟩
  · rw [Family.lose_of_not_holds hholds]
    exact .inl hf

theorem gone_iff (h : Reachable allocates limits reg) (removal : Removal)
    (hf : f ∈ reg.families) :
    (∀ g ∈ (reg.remove removal).registry.families, g.root ≠ f.root) ↔
      (f.lose removal).isSpent = true := by
  constructor
  · intro hgone
    rw [← Bool.not_eq_false]
    intro hkept
    exact hgone _ ((mem_remove h removal).2 ⟨f, hf, hkept, rfl⟩) Family.root_lose
  · intro hspent g hg hroot
    obtain ⟨f', hf', hkept, rfl⟩ := (mem_remove h removal).1 hg
    rw [Family.root_lose] at hroot
    obtain rfl : f' = f := h.sound.eq_of_not_apart hf' hf fun ha => ha.roots hroot
    rw [hspent] at hkept
    cases hkept

/-! ## Places that are kept -/

theorem rootOf_congr {later : Registry} (h : SoundTable allocates reg.families)
    (h' : SoundTable allocates later.families)
    (hsame : ∀ root, HasMember later.families root pid ↔ HasMember reg.families root pid) :
    later.rootOf pid = reg.rootOf pid := by
  by_cases hm : ∃ root, HasMember reg.families root pid
  · obtain ⟨root, hm⟩ := hm
    rw [h.rootOf hm, h'.rootOf ((hsame root).2 hm)]
  · have hnone : ∀ root, ¬ HasMember later.families root pid :=
      fun root hm' => hm ⟨root, (hsame root).1 hm'⟩
    rw [rootOf_eq_invalid (not_exists.1 hm), rootOf_eq_invalid hnone]

theorem rootOfFile_congr {later : Registry} (h : SoundTable allocates reg.families)
    (h' : SoundTable allocates later.families)
    (hsame : ∀ root, HasFile later.families root file ↔ HasFile reg.families root file) :
    later.rootOfFile file = reg.rootOfFile file := by
  by_cases hm : ∃ root, HasFile reg.families root file
  · obtain ⟨root, hm⟩ := hm
    rw [h.rootOfFile hm, h'.rootOfFile ((hsame root).2 hm)]
  · have hnone : ∀ root, ¬ HasFile later.families root file :=
      fun root hm' => hm ⟨root, (hsame root).1 hm'⟩
    rw [rootOfFile_eq_invalid (not_exists.1 hm), rootOfFile_eq_invalid hnone]

theorem rootOf_dismiss {other : Pid} (h : SoundTable allocates reg.families) (hne : other ≠ pid) :
    (reg.dismiss pid).registry.rootOf other = reg.rootOf other := by
  apply rootOf_congr h (sound_dismiss h)
  intro root
  rw [hasMember_dismiss h]
  exact and_iff_right hne

theorem hasFile_dismiss (h : Reachable allocates limits reg) :
    HasFile (reg.dismiss pid).registry.families root file ↔
      ∃ f ∈ reg.families, f.root = root ∧ file ∈ f.files.items ∧ ¬ f.EndsWith pid := by
  have hkept : ∀ f ∈ reg.families, file ∈ f.files.items →
      ((f.dismiss pid).isSpent = false ↔ ¬ f.EndsWith pid) := by
    intro f hf hx
    rw [← Bool.not_eq_true]
    apply not_congr
    by_cases hp : pid ∈ f.members.items
    · rw [Family.isSpent_dismiss hp]
      simp [Family.EndsWith, List.ne_nil_of_mem hx]
    · have hno : ¬ f.Holds (.member pid) := hp
      have hsame : f.dismiss pid = f := Family.lose_of_not_holds hno
      rw [hsame, h.present f hf]
      refine iff_of_false Bool.false_ne_true fun hends => hp ?_
      rw [hends.1]
      exact List.mem_singleton_self pid
  constructor
  · rintro ⟨g, hg, hroot, hx⟩
    obtain ⟨f, hf, hspent, rfl⟩ := (mem_remove h (.member pid)).1 hg
    exact ⟨f, hf, hroot, hx, (hkept f hf hx).1 hspent⟩
  · rintro ⟨f, hf, hroot, hx, hends⟩
    have hg := (mem_remove h (.member pid)).2 ⟨f, hf, (hkept f hf hx).2 hends, rfl⟩
    exact ⟨_, hg, hroot, hx⟩

theorem hasFile_disown {other : FileId} (h : Reachable allocates limits reg) :
    HasFile (reg.disown file).registry.families root other ↔
      other ≠ file ∧ HasFile reg.families root other := by
  rcases disown_cases h.sound file with turns | ⟨hsame, hno⟩
  · exact turns.hasFile_disown h.sound h.present
  · rw [hsame]
    refine ⟨fun hm => ⟨?_, hm⟩, And.right⟩
    rintro rfl
    exact hno root hm

theorem answer_disown_iff (h : SoundTable allocates reg.families) :
    (reg.disown file).answer = true ↔ (reg.rootOfFile file).isValid = true := by
  by_cases hm : ∃ root, HasFile reg.families root file
  · obtain ⟨root, hm⟩ := hm
    have hroot : root.isValid = true := by
      obtain ⟨f, hf, rfl, -⟩ := hm
      exact (h.sound f hf).root
    rw [(disown_of_file h hm).1, h.rootOfFile hm, hroot]
  · rw [(disown_of_not_file (not_exists.1 hm)).1, rootOfFile_eq_invalid (not_exists.1 hm)]
    decide

/-! ## One removal -/

/-- The step takes `pid` out of its family, and leaves everybody else where they are. -/
structure Dismisses (reg : Registry) (pid : Pid) (step : Step Bool) : Prop where
  answer : step.answer = true ↔ reg.tracks pid = true
  out : step.registry.tracks pid = false
  processes : ∀ other, other ≠ pid → step.registry.rootOf other = reg.rootOf other
  files : ∀ file, (∀ f ∈ reg.families, f.EndsWith pid → file ∉ f.files.items) →
    step.registry.rootOfFile file = reg.rootOfFile file
  /-- The files of a family that goes have no owner any more. -/
  ended : ∀ f ∈ reg.families, f.EndsWith pid →
    (∀ g ∈ step.registry.families, g.root ≠ f.root) ∧
      ∀ file ∈ f.files.items, step.registry.rootOfFile file = .invalid
  others : ∀ f ∈ reg.families, pid ∉ f.members.items → f ∈ step.registry.families
  left : ∀ g ∈ step.registry.families,
    g ∈ reg.families ∨ ∃ f ∈ reg.families, pid ∈ f.members.items ∧ g = f.dismiss pid

/-- The step takes `file` from its family, and leaves everything else where it is. -/
structure Disowns (reg : Registry) (file : FileId) (step : Step Bool) : Prop where
  answer : step.answer = true ↔ (reg.rootOfFile file).isValid = true
  out : step.registry.rootOfFile file = .invalid
  processes : ∀ pid, step.registry.rootOf pid = reg.rootOf pid
  files : ∀ other, other ≠ file → step.registry.rootOfFile other = reg.rootOfFile other
  ended : ∀ f ∈ reg.families, (∀ g ∈ step.registry.families, g.root ≠ f.root) ↔
    f.members.items = [] ∧ f.policy = .protectDroppedFiles ∧ f.files.items = [file]
  others : ∀ f ∈ reg.families, file ∉ f.files.items → f ∈ step.registry.families
  left : ∀ g ∈ step.registry.families,
    g ∈ reg.families ∨ ∃ f ∈ reg.families, file ∈ f.files.items ∧ g = f.disown file

theorem dismisses (h : Reachable allocates limits reg) (pid : Pid) :
    reg.Dismisses pid (reg.dismiss pid) := by
  have hs := h.sound
  have hafter : SoundTable allocates (reg.dismiss pid).registry.families := sound_dismiss hs
  constructor
  case answer => rw [answer_dismiss hs]
  case out => exact tracks_dismiss hs
  case processes => exact fun other hne => rootOf_dismiss hs hne
  case files =>
    intro file hno
    apply rootOfFile_congr hs hafter
    intro root
    rw [hasFile_dismiss h]
    constructor
    · rintro ⟨f, hf, hroot, hx, -⟩
      exact ⟨f, hf, hroot, hx⟩
    · rintro ⟨f, hf, hroot, hx⟩
      exact ⟨f, hf, hroot, hx, fun hends => hno f hf hends hx⟩
  case ended =>
    intro f hf hends
    have hp : pid ∈ f.members.items := by
      rw [hends.1]
      exact List.mem_singleton_self pid
    refine ⟨(gone_iff h (.member pid) hf).2 ?_, fun file hx => ?_⟩
    · exact (Family.isSpent_dismiss hp).2 ⟨hends.1, .inl hends.2⟩
    · apply rootOfFile_eq_invalid
      intro root hm
      obtain ⟨g, hg, -, hx', hnot⟩ := (hasFile_dismiss h).1 hm
      obtain rfl : g = f := hs.eq_of_not_apart hg hf fun ha => ha.files hx' hx
      exact hnot hends
  case others => exact fun f hf hno => mem_remove_of_not_holds h (.member pid) hf hno
  case left => exact fun g hg => eq_of_mem_remove h (.member pid) hg

theorem disowns (h : Reachable allocates limits reg) (file : FileId) :
    reg.Disowns file (reg.disown file) := by
  have hs := h.sound
  have hafter : SoundTable allocates (reg.disown file).registry.families :=
    (disown_changes hs file).sound hs
  constructor
  case answer => exact answer_disown_iff hs
  case out =>
    apply rootOfFile_eq_invalid
    intro root hm
    exact ((hasFile_disown h).1 hm).1 rfl
  case processes => exact fun pid => rootOf_congr hs hafter fun root => hasMember_disown hs
  case files =>
    intro other hne
    apply rootOfFile_congr hs hafter
    intro root
    rw [hasFile_disown h]
    exact and_iff_right hne
  case ended =>
    intro f hf
    refine (gone_iff h (.file file) hf).trans ?_
    by_cases hx : file ∈ f.files.items
    · -- a family without processes would be gone if it did not protect its files
      have hprotects (hempty : f.members.items = []) : f.policy = .protectDroppedFiles :=
        protects_of_isEmpty (h.present f hf) (List.isEmpty_iff.2 hempty)
      show (f.disown file).isSpent = true ↔ _
      rw [Family.isSpent_disown hx]
      refine and_congr_right fun hempty => ?_
      simp [hprotects hempty]
    · have hno : ¬ f.Holds (.file file) := hx
      rw [Family.lose_of_not_holds hno, h.present f hf]
      refine iff_of_false Bool.false_ne_true fun hlast => hx ?_
      rw [hlast.2.2]
      exact List.mem_singleton_self file
  case others => exact fun f hf hno => mem_remove_of_not_holds h (.file file) hf hno
  case left => exact fun g hg => eq_of_mem_remove h (.file file) hg

/-- Who leaves, and a file that is given up, are missed by one family only. No other process or file
has another root afterwards, but for the files of a family that goes with its last process. -/
theorem touches_one_family (h : Reachable allocates limits reg) :
    (∀ pid, reg.Dismisses pid (reg.dismiss pid)) ∧ ∀ file, reg.Disowns file (reg.disown file) :=
  ⟨dismisses h, disowns h⟩

/-- With 10 its family goes and file 7 is free, and with file 8 that of 20 goes. Either way the
family of 30 is moved to another slot, and 31 and file 9 stay with it. -/
theorem touches_one_family_moved :
    let reg := (empty {}).execAll (fun _ => true)
      [.found ⟨10⟩ .invalid .noRestriction, .claim ⟨7⟩ ⟨10⟩,
        .found ⟨20⟩ .invalid .protectDroppedFiles, .claim ⟨8⟩ ⟨20⟩, .dismiss ⟨20⟩,
        .found ⟨30⟩ .invalid .noRestriction, .enroll ⟨31⟩ ⟨30⟩, .claim ⟨9⟩ ⟨31⟩]
    let first := (reg.dismiss ⟨10⟩).registry
    let second := (reg.disown ⟨8⟩).registry
    Reachable (fun _ => true) {} reg ∧
      first.families.map Family.root = [⟨30⟩, ⟨20⟩] ∧ first.rootOfFile ⟨7⟩ = .invalid ∧
      first.rootOf ⟨31⟩ = ⟨30⟩ ∧ first.rootOfFile ⟨9⟩ = reg.rootOfFile ⟨9⟩ ∧
      second.families.map Family.root = [⟨10⟩, ⟨30⟩] ∧ second.rootOfFile ⟨9⟩ = ⟨30⟩ ∧
      second.rootOf ⟨10⟩ = reg.rootOf ⟨10⟩ := by
  intro reg first second
  have h : Reachable (fun _ => true) {} reg := Reachable.execAll _ .empty
  obtain ⟨hdismisses, hdisowns⟩ := touches_one_family h
  have hends : ∃ f ∈ reg.families, f.EndsWith ⟨10⟩ ∧ ⟨7⟩ ∈ f.files.items := by
    refine ⟨_, List.mem_cons_self, ⟨?_, ?_⟩, ?_⟩ <;> decide
  obtain ⟨f, hf, hends, hfile⟩ := hends
  have hother : ∀ g ∈ reg.families, g.members.items = [⟨10⟩] → ⟨9⟩ ∉ g.files.items := by decide
  refine ⟨h, by decide, ((hdismisses ⟨10⟩).ended f hf hends).2 ⟨7⟩ hfile, ?_,
    (hdismisses ⟨10⟩).files ⟨9⟩ fun g hg hends => hother g hg hends.1, by decide, ?_,
    (hdisowns ⟨8⟩).processes ⟨10⟩⟩
  · exact ((hdismisses ⟨10⟩).processes ⟨31⟩ (by decide)).trans (by decide)
  · exact ((hdisowns ⟨8⟩).files ⟨9⟩ (by decide)).trans (by decide)

end Registry

end Containment
