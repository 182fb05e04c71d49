import Containment.Control
import Containment.Machine
import Containment.Proofs.Capacity
import Containment.Proofs.Removals
import Containment.Proofs.Scripts

/-!
# Terminations

The processes of a family are terminated one after the other, and each of them leaves the family
when it is gone. So where the loop stops at a process that cannot be terminated, this one and those
after it are still in the family, and all before it are not (`terminateEach_yields_error`). To the
other families nothing happens, whatever slots move meanwhile (`terminated_in_order`).
-/

namespace Containment

variable {host : Host} {allocates : Allocator} {limits : Limits} {reg after : Registry}
variable {f g : Family} {rest : List Family} {pid : Pid} {gone left : List Pid}

/-! ## A family that loses some of its processes -/

structure Family.LeftWith (f : Family) (pids : List Pid) (g : Family) : Prop where
  root : g.root = f.root
  origin : g.origin = f.origin
  policy : g.policy = f.policy
  members : g.members.items.Perm pids
  files : g.files = f.files

namespace Family

def rootLast (f : Family) : List Pid :=
  f.members.items.erase f.root ++ if f.isLive then [f.root] else []

theorem perm_rootLast (f : Family) : f.rootLast.Perm f.members.items := by
  unfold rootLast
  split
  · rename_i hlive
    refine (List.perm_append_singleton _ _).trans (List.perm_cons_erase ?_).symm
    exact isLive_iff.1 hlive
  · rename_i hdead
    rw [List.append_nil, List.erase_of_not_mem fun hroot => hdead (isLive_iff.2 hroot)]

theorem rootLast_eq (h : f.Sound allocates) :
    Request.rootLast f.root f.members.items = f.rootLast := by
  have hnodup : f.members.items.Nodup := h.members.ascending.imp fun hlt => ne_of_irrefl hlt
  unfold Request.rootLast rootLast
  rw [hnodup.erase_eq_filter, List.filter_beq]
  congr 1
  by_cases hlive : f.isLive = true
  · rw [hnodup.count, if_pos hlive, if_pos (isLive_iff.1 hlive)]
    rfl
  · rw [hnodup.count, if_neg hlive, if_neg fun hroot => hlive (isLive_iff.2 hroot)]
    rfl

theorem leftWith_shed (h : f.members.items.Perm (gone ++ left)) :
    f.LeftWith left (f.shed (gone.map .member)) := by
  induction gone generalizing f with
  | nil => exact ⟨rfl, rfl, rfl, h, rfl⟩
  | cons pid gone ih =>
    have hfirst : (f.dismiss pid).members.items.Perm (gone ++ left) := by
      have herase := h.erase pid
      rw [List.cons_append, List.erase_cons_head] at herase
      rwa [dismiss, BoundedSet.items_erase]
    obtain ⟨hroot, horigin, hpolicy, hmembers, hfiles⟩ := ih hfirst
    exact ⟨hroot, horigin, hpolicy, hmembers, hfiles⟩

end Family

namespace Registry

theorem perm_removeAll_members (h : Reachable allocates limits reg)
    (hperm : reg.families.Perm (f :: rest)) (hgone : ∀ pid ∈ gone, pid ∈ f.members.items) :
    (reg.removeAll (gone.map .member)).families.Perm
      ((f.shed (gone.map .member)).kept ++ rest) := by
  have hall := (perm_removeAll h (gone.map .member)).trans (hperm.flatMap_right _)
  have hrest : ∀ g ∈ rest, (g.shed (gone.map .member)).kept = [g] := by
    intro g hg
    have hapart : f.Apart g := (SoundTable.cons_iff.1 (h.sound.perm hperm)).2.1 g hg
    have hsame : g.shed (gone.map .member) = g := by
      refine Family.shed_of_not_holds (List.forall_mem_map.2 fun pid hpid => ?_)
      exact Family.not_holds_of_apart hapart (hgone pid hpid)
    rw [hsame, Family.kept_of_not_isSpent]
    exact h.present g (hperm.mem_iff.2 (List.mem_cons_of_mem _ hg))
  rwa [List.flatMap_cons, List.flatMap_congr hrest, List.flatMap_singleton'] at hall

end Registry

namespace Request

open Script

theorem terminateEach_yields_append {answer : Except ControlError Unit} {pids killed : List Pid}
    (hok : ∀ pid ∈ gone, host.terminate pid = .ok ())
    (hlater : Yields host (terminateEach pids) (reg.removeAll (gone.map .member)) answer after
      killed) :
    Yields host (terminateEach (gone ++ pids)) reg answer after (gone ++ killed) := by
  -- on the processes that are gone, each of which leaves before the next one is terminated
  induction gone generalizing reg with
  | nil => exact hlater
  | cons pid gone ih =>
    obtain ⟨hfirst, hok⟩ := List.forall_mem_cons.1 hok
    have hkill : Yields host (Script.terminate pid) reg (.ok ()) reg [pid] := .terminate hfirst
    have hdismiss : Yields host (discard (ask (.dismiss pid))) reg ()
        (reg.dismiss pid).registry [] := .discard .ask
    exact hkill.bind (hdismiss.bind (ih hok hlater))

theorem terminateEach_yields_ok (hok : ∀ pid ∈ gone, host.terminate pid = .ok ()) :
    Yields host (terminateEach gone) reg (.ok ()) (reg.removeAll (gone.map .member)) gone := by
  have hlast : Yields host (terminateEach []) (reg.removeAll (gone.map .member)) (.ok ())
      (reg.removeAll (gone.map .member)) [] := .pure
  simpa using terminateEach_yields_append hok hlast

theorem terminateEach_yields_error {pids : List Pid} {failure : TerminationFailure}
    (hok : ∀ pid ∈ gone, host.terminate pid = .ok ())
    (hfails : host.terminate pid = .error failure) :
    Yields host (terminateEach (gone ++ pid :: pids)) reg (.error (.termination pid failure))
      (reg.removeAll (gone.map .member)) gone := by
  have hlast : Yields host (terminateEach (pid :: pids)) (reg.removeAll (gone.map .member))
      (.error (.termination pid failure)) (reg.removeAll (gone.map .member)) [] :=
    .bind (.terminate_error hfails) .pure
  simpa using terminateEach_yields_append hok hlast

/-! ## Terminating a family -/

theorem termination_yields_untracked (hno : reg.tracks pid = false) :
    Yields host (terminate pid).dispatch reg (.error (.refused .noParent)) reg [] := by
  have hroot : reg.rootOf pid = .invalid := by
    unfold Registry.rootOf
    cases hs : reg.slotOfMember? pid with
    | none => simp
    | some slot => simp_all [Registry.tracks]
  have hask : Yields host (ask (.rootOf pid)) reg .invalid reg [] := .ask_eq hroot rfl
  exact hask.bind .pure

theorem termination_yields {answer : Except ControlError Unit}
    (h : SoundTable allocates reg.families) (hf : f ∈ reg.families)
    (hp : pid ∈ f.members.items)
    (heach : Yields host (terminateEach f.rootLast) reg answer after gone) :
    Yields host (terminate pid).dispatch reg (answer.map fun _ => .terminated f.rootLast) after
      gone := by
  have hs := h.sound f hf
  have hroot : Yields host (ask (.rootOf pid)) reg f.root reg [] :=
    .ask_eq (h.rootOf ⟨f, hf, rfl, hp⟩) rfl
  have hmembers : Yields host (ask (.members f.root)) reg f.members.items reg [] :=
    .ask_eq (Registry.members_root h hf) rfl
  refine hroot.bind ?_
  simp only [hs.root, Bool.not_true, Bool.false_eq_true, if_false]
  refine hmembers.bind ?_
  rw [Family.rootLast_eq hs, ← List.append_nil gone]
  refine heach.bind ?_
  cases answer with
  | error error => exact .pure
  | ok => exact .bind .say .pure

variable (h : Registry.Reachable allocates limits reg)
variable (hperm : reg.families.Perm (f :: rest)) (hp : pid ∈ f.members.items)

include h hperm hp

theorem termination_completes (hok : ∀ p ∈ f.members.items, host.terminate p = .ok ()) :
    ∃ after, Yields host (terminate pid).dispatch reg (.ok (.terminated f.rootLast)) after
        f.rootLast ∧
      (∀ p ∈ f.members.items, after.tracks p = false) ∧
      ∃ g, f.LeftWith [] g ∧ after.families.Perm (g.kept ++ rest) := by
  have hmem (p : Pid) : p ∈ f.rootLast ↔ p ∈ f.members.items := f.perm_rootLast.mem_iff
  have heach : Yields host (terminateEach f.rootLast) reg (.ok ())
      (reg.removeAll (f.rootLast.map .member)) f.rootLast :=
    terminateEach_yields_ok fun p hp => hok p ((hmem p).1 hp)
  refine ⟨_, termination_yields h.sound (hperm.mem_iff.2 List.mem_cons_self) hp heach, ?_, _, ?_,
    Registry.perm_removeAll_members h hperm fun p hp => (hmem p).1 hp⟩
  · intro p hp
    rw [Registry.tracks_removeAll h, if_pos (List.mem_map_of_mem ((hmem p).2 hp))]
  · exact Family.leftWith_shed (by simpa using f.perm_rootLast.symm)

theorem termination_stops {p : Pid} {failure : TerminationFailure}
    (hloop : f.rootLast = gone ++ p :: left) (hok : ∀ x ∈ gone, host.terminate x = .ok ())
    (hfails : host.terminate p = .error failure) :
    ∃ after g, Yields host (terminate pid).dispatch reg (.error (.termination p failure)) after
        gone ∧
      f.LeftWith (p :: left) g ∧ after.families.Perm (g :: rest) := by
  have hmem : ∀ x ∈ gone, x ∈ f.members.items := fun x hx =>
    f.perm_rootLast.mem_iff.1 (hloop ▸ List.mem_append_left _ hx)
  have heach : Yields host (terminateEach f.rootLast) reg (.error (.termination p failure))
      (reg.removeAll (gone.map .member)) gone := by
    rw [hloop]
    exact terminateEach_yields_error hok hfails
  have hleft : f.LeftWith (p :: left) (f.shed (gone.map .member)) :=
    Family.leftWith_shed (hloop ▸ f.perm_rootLast.symm)
  have hstays : p ∈ (f.shed (gone.map .member)).members.items :=
    hleft.members.mem_iff.2 List.mem_cons_self
  have hfamilies := Registry.perm_removeAll_members h hperm hmem
  rw [Family.kept_of_not_isSpent (Family.isSpent_of_mem hstays)] at hfamilies
  exact ⟨_, _, termination_yields h.sound (hperm.mem_iff.2 List.mem_cons_self) hp heach, hleft,
    hfamilies⟩

omit h hperm hp

/-- A termination of a process in no family is refused. Otherwise all processes of its family are
terminated, the root last, and they leave it, or the termination ends with the first of them that
fails, which stays with those after it. The other families are as before, up to the slots. -/
theorem terminated_in_order (h : Registry.Reachable allocates limits reg) (host : Host)
    (pid : Pid) :
    (reg.tracks pid = false →
      Yields host (terminate pid).dispatch reg (.error (.refused .noParent)) reg []) ∧
    (reg.tracks pid = true → ∃ f rest, reg.families.Perm (f :: rest) ∧ pid ∈ f.members.items ∧
      f.members.items.Pairwise (· < ·) ∧
      ((∀ p ∈ f.members.items, host.terminate p = .ok ()) →
        ∃ after, Yields host (terminate pid).dispatch reg (.ok (.terminated f.rootLast)) after
            f.rootLast ∧
          (∀ p ∈ f.members.items, after.tracks p = false) ∧
          (f.policy = .protectDroppedFiles ∧ f.files.items ≠ [] →
            ∃ g, f.LeftWith [] g ∧ after.families.Perm (g :: rest)) ∧
          (¬ (f.policy = .protectDroppedFiles ∧ f.files.items ≠ []) → after.families.Perm rest)) ∧
      ∀ gone p left failure, f.rootLast = gone ++ p :: left →
        (∀ x ∈ gone, host.terminate x = .ok ()) → host.terminate p = .error failure →
        ∃ after g, Yields host (terminate pid).dispatch reg (.error (.termination p failure)) after
            gone ∧
          f.LeftWith (p :: left) g ∧ after.families.Perm (g :: rest)) := by
  refine ⟨termination_yields_untracked, fun htracks => ?_⟩
  -- the processes are in one family only, so this is the one that the script asks for
  obtain ⟨_, f, hf, -, hp⟩ := h.sound.tracks_iff.1 htracks
  have hperm : reg.families.Perm (f :: reg.families.erase f) := List.perm_cons_erase hf
  refine ⟨f, _, hperm, hp, (h.sound.sound f hf).members.ascending, fun hok => ?_, ?_⟩
  · obtain ⟨after, hyields, hgone, g, hleft, hfamilies⟩ := termination_completes h hperm hp hok
    have hempty : g.members.items = [] := List.perm_nil.1 hleft.members
    refine ⟨after, hyields, hgone, fun hprotects => ⟨g, hleft, ?_⟩, fun hfree => ?_⟩
    · rwa [Family.kept_of_not_isSpent] at hfamilies
      rw [Family.isSpent_eq_false_iff, hleft.policy, hleft.files]
      exact .inr hprotects
    · rwa [Family.kept_of_isSpent] at hfamilies
      by_contra hstays
      rw [Bool.not_eq_true, Family.isSpent_eq_false_iff, hleft.policy, hleft.files] at hstays
      exact hfree (hstays.resolve_left (not_not.2 hempty))
  · intro gone p left failure hloop hok hfails
    exact termination_stops h hperm hp hloop hok hfails

/-- 11 and 13 are gone when it turns out that 14 may not be terminated, and so the root stays too.
The family of 30 is not concerned. -/
theorem terminated_in_order_denied :
    let denied : TerminationFailure := .signal ⟨14⟩ .notPermitted
    let host := ({ unkillable := [(⟨14⟩, denied)] } : Machine).host
    let reg := (Registry.empty {}).execAll host.allocates
      [.found ⟨20⟩ .invalid .noRestriction, .found ⟨12⟩ .invalid .protectDroppedFiles,
        .enroll ⟨14⟩ ⟨12⟩, .enroll ⟨11⟩ ⟨12⟩, .enroll ⟨13⟩ ⟨12⟩, .claim ⟨7⟩ ⟨12⟩,
        .found ⟨30⟩ .invalid .noRestriction, .dismiss ⟨20⟩]
    Registry.Reachable host.allocates {} reg ∧ reg.tracks ⟨13⟩ = true ∧
      reg.families.map Family.root = [⟨30⟩, ⟨12⟩] ∧
      ∃ after, Yields host (terminate ⟨13⟩).dispatch reg (.error (.termination ⟨14⟩ denied)) after
          [⟨11⟩, ⟨13⟩] ∧
        (after.families.map fun f => f.members.items) = [[⟨30⟩], [⟨12⟩, ⟨14⟩]] := by
  intro denied host reg
  have h : Registry.Reachable host.allocates {} reg := Registry.Reachable.execAll _ .empty
  have htracks : reg.tracks ⟨13⟩ = true := by decide
  obtain ⟨f, rest, hperm, hp, -, -, hstops⟩ := (terminated_in_order h host ⟨13⟩).2 htracks
  have hloop : ∀ f ∈ reg.families, ⟨13⟩ ∈ f.members.items →
      f.rootLast = [⟨11⟩, ⟨13⟩] ++ ⟨14⟩ :: [⟨12⟩] := by decide
  have hroot := hloop f (hperm.mem_iff.2 List.mem_cons_self) hp
  obtain ⟨after, g, hyields, -, -⟩ := hstops _ _ _ denied hroot (by decide) (by decide)
  have hafter := hyields.registry
  refine ⟨h, htracks, by decide, after, hyields, ?_⟩
  rw [← hafter]
  decide

end Request

end Containment
