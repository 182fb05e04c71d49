import Containment.Proofs.Reactions
import Containment.Proofs.Reclaim

/-!
# Who is terminated for the file of a family

Whoever executes a file of a family that its root has left is terminated, whether it comes from
outside all families or is one of those that the root has left behind (`killed_for_file_iff`). It is
a respawn when the family protects its files and the process is none of its own. So everybody
terminated is a respawn where nobody is left behind, but not where somebody is.
-/

namespace Containment

variable {allocates : Allocator} {limits : Limits} {host : Host} {settings : WatchSettings}
variable {reg : Registry} {pid : Pid}
variable {file : FileId} {answer : Except Refusal Unit} {blocksDead : Bool} {cause : Refusal}
variable {reaction : Reaction} {killed : List Pid}

namespace ProcessEvent

open Script

theorem Reacts.terminated_iff
    (h : Reacts host settings reg pid blocksDead answer reaction killed) :
    reaction = .terminated pid cause ↔ answer = .error cause ∧
      deserves settings blocksDead cause = true ∧ host.terminate pid = .ok () := by
  cases h with
  | attached taken =>
    refine iff_of_false nofun fun ⟨ha, hd, _⟩ => ?_
    rw [ha, taken_error_iff] at taken
    rw [taken] at hd
    cases hd
  | ignored why =>
    refine iff_of_false nofun fun ⟨ha, hd, _⟩ => ?_
    cases ha
    rcases why with rfl | rfl
    · cases hd
    · cases hd
  | rejected spared =>
    refine iff_of_false nofun fun ⟨ha, hd, hk⟩ => ?_
    cases ha
    exact spared hd hk
  | terminated deserved gone =>
    constructor
    · rintro ⟨⟩
      exact ⟨rfl, deserved, gone⟩
    · rintro ⟨⟨⟩, -, -⟩
      rfl

theorem imageLoaded_treeDead_iff (h : SoundTable allocates reg.families) :
    (((ProcessEvent.imageLoaded pid file).handle settings).run host reg).progress =
        .finished (.terminated pid .treeDead) ↔
      settings.blockRespawn = true ∧ host.terminate pid = .ok () ∧ pid.isValid = true ∧
        ∃ f ∈ reg.families, file ∈ f.files.items ∧ reg.Bars f pid := by
  cases hv : file.isValid with
  | true =>
    obtain ⟨reaction, killed, hreacts, hy⟩ := imageLoaded_yields hv
    rw [hy.progress, Progress.finished.injEq, hreacts.terminated_iff,
      Registry.adopt_treeDead_iff h host.allocates]
    simp only [deserves]
    tauto
  | false =>
    refine iff_of_false ?_ ?_
    · simp only [handle, hv, Bool.not_false, if_true]
      rintro ⟨⟩
    · rintro ⟨-, -, -, f, hf, hx, -⟩
      rw [(h.sound f hf).valid_of_file hx] at hv
      cases hv

end ProcessEvent

/-- A process is terminated for a file exactly when its family is without its root and bars the
process. It is then a respawn unless somebody is left in the family and the family does not protect
its files, or it is the process itself that is left. -/
theorem killed_for_file_iff (h : Registry.Reachable allocates limits reg) (host : Host)
    (settings : WatchSettings) (pid : Pid) (file : FileId) :
    let run := ((ProcessEvent.imageLoaded pid file).handle settings).run host reg
    (run.progress = .finished (.terminated pid .treeDead) ↔
      settings.blockRespawn = true ∧ host.terminate pid = .ok () ∧ pid.isValid = true ∧
        ∃ f ∈ reg.families, file ∈ f.files.items ∧ reg.Bars f pid) ∧
    (run.progress = .finished (.terminated pid .treeDead) →
      ∀ f ∈ reg.families, file ∈ f.files.items → f.isLive = false ∧
        ((f.policy = .protectDroppedFiles ∧ pid ∉ f.members.items) ↔
          ∀ survivor ∈ f.members.items, f.policy = .protectDroppedFiles ∧ survivor ≠ pid)) := by
  intro run
  have hiff : run.progress = .finished (.terminated pid .treeDead) ↔ _ :=
    ProcessEvent.imageLoaded_treeDead_iff h.sound
  refine ⟨hiff, fun hkilled f hf hx => ?_⟩
  obtain ⟨-, -, -, g, hg, hx', hbars⟩ := hiff.1 hkilled
  obtain rfl : g = f := h.sound.eq_of_not_apart hg hf fun ha => ha.files hx' hx
  refine ⟨hbars.rootless, ?_⟩
  constructor
  · rintro ⟨hprotects, hout⟩ survivor hin
    exact ⟨hprotects, fun heq => hout (heq ▸ hin)⟩
  · intro hall
    refine ⟨?_, fun hin => (hall pid hin).2 rfl⟩
    -- a family that nobody is left in would be gone without its policy
    cases hleft : g.members.items with
    | nil =>
      refine Registry.protects_of_isEmpty (h.present g hg) (BoundedSet.isEmpty_iff.2 ?_)
      simp [hleft]
    | cons survivor others => exact (hall survivor (by simp [hleft])).1

def forsaken : Registry :=
  (Registry.empty {}).execAll Machine.addressable
    [.found ⟨10⟩ .invalid .noRestriction, .claim ⟨7⟩ ⟨10⟩, .enroll ⟨11⟩ ⟨10⟩,
      .found ⟨30⟩ .invalid .protectDroppedFiles, .claim ⟨8⟩ ⟨30⟩, .enroll ⟨31⟩ ⟨30⟩,
      .dismiss ⟨10⟩, .dismiss ⟨30⟩]

theorem reachable_forsaken : Registry.Reachable Machine.addressable {} forsaken :=
  .execAll _ .empty

theorem killed_for_file_iff_stranger :
    let host := ({} : Machine).host
    let run := ((ProcessEvent.imageLoaded ⟨40⟩ ⟨8⟩).handle {}).run host forsaken
    Registry.Reachable host.allocates {} forsaken ∧
      run.progress = .finished (.terminated ⟨40⟩ .treeDead) ∧
      ∃ f ∈ forsaken.families, ⟨8⟩ ∈ f.files.items ∧ f.members.items = [⟨31⟩] ∧
        f.isLive = false ∧ f.policy = .protectDroppedFiles ∧ ⟨40⟩ ∉ f.members.items := by
  intro host run
  have hfamily : ∃ f ∈ forsaken.families,
      ⟨8⟩ ∈ f.files.items ∧ f.members.items = [⟨31⟩] ∧ f.policy = .protectDroppedFiles := by decide
  obtain ⟨f, hf, hx, hleft, hprotects⟩ := hfamily
  have hkilled : run.progress = .finished (.terminated ⟨40⟩ .treeDead) := rfl
  obtain ⟨hrootless, hrespawn⟩ :=
    (killed_for_file_iff reachable_forsaken host {} ⟨40⟩ ⟨8⟩).2 hkilled f hf hx
  refine ⟨reachable_forsaken, hkilled, f, hf, hx, hleft, hrootless, hrespawn.2 ?_⟩
  rw [hleft]
  exact List.forall_mem_singleton.2 ⟨hprotects, by decide⟩

/-- The family of 10 does not protect file 7, but 40 is terminated for it, as 11 is left. -/
theorem not_only_respawns : ¬ ∀ (host : Host) (settings : WatchSettings) (limits : Limits)
    (reg : Registry) (pid : Pid) (file : FileId), Registry.Reachable host.allocates limits reg →
    (((ProcessEvent.imageLoaded pid file).handle settings).run host reg).progress =
        .finished (.terminated pid .treeDead) →
      ∀ f ∈ reg.families, file ∈ f.files.items →
        f.isLive = false ∧ f.policy = .protectDroppedFiles ∧ pid ∉ f.members.items := by
  intro hall
  have hbad := hall ({} : Machine).host {} {} forsaken ⟨40⟩ ⟨7⟩ reachable_forsaken rfl
  revert hbad
  decide

end Containment
