import Containment.Proofs.Order
import Containment.Proofs.Wakeups

/-!
# Removals in any order

What is left of a table after a list of removals does not depend on what happened in between: each
family is without all that has been taken from it, and it is gone when nothing keeps it any more
(`perm_removeAll`). A family that is collected early has lost its last process, and what the other
removals would have taken from it goes with it. So the order does not matter (`removals_commute`).
-/

namespace Containment

variable {allocates : Allocator} {limits : Limits} {reg : Registry}

inductive Removal where
  | member (pid : Pid)
  | file (file : FileId)
  deriving DecidableEq

/-! ## Families -/

namespace Family

variable {f g : Family} {removal : Removal} {removals order : List Removal}

def Holds (f : Family) : Removal → Prop
  | .member pid => pid ∈ f.members.items
  | .file file => file ∈ f.files.items

def lose (f : Family) : Removal → Family
  | .member pid => f.dismiss pid
  | .file file => f.disown file

/-- The family without all that is removed, be it collected on the way or not. -/
def shed (f : Family) (removals : List Removal) : Family := removals.foldl lose f

theorem lose_of_not_holds (h : ¬ f.Holds removal) : f.lose removal = f := by
  cases removal with
  | member pid => simp only [lose, dismiss, BoundedSet.erase_of_not_mem h]
  | file file => simp only [lose, disown, BoundedSet.erase_of_not_mem h]

instance : RightCommutative lose where
  right_comm f a b := by
    cases a <;> cases b <;> simp [lose, dismiss, disown, BoundedSet.erase_comm]

theorem shed_perm (h : order.Perm removals) (f : Family) : f.shed order = f.shed removals :=
  h.foldl_eq f

theorem shed_of_not_holds (h : ∀ removal ∈ removals, ¬ f.Holds removal) :
    f.shed removals = f := by
  induction removals with
  | nil => rfl
  | cons removal removals ih =>
    obtain ⟨hfirst, hlater⟩ := List.forall_mem_cons.1 h
    have hlose : f.lose removal = f := lose_of_not_holds hfirst
    rw [shed, List.foldl_cons, hlose]
    exact ih hlater

theorem not_holds_of_apart (h : f.Apart g) (hf : f.Holds removal) : ¬ g.Holds removal := by
  intro hg
  cases removal with
  | member pid => exact h.members hf hg
  | file file => exact h.files hf hg

theorem isSpent_lose (h : f.isSpent = true) : (f.lose removal).isSpent = true := by
  unfold isSpent at h ⊢
  cases removal <;> cases hp : f.policy <;>
    simp_all [lose, dismiss, disown, BoundedSet.isEmpty]

theorem isSpent_shed (h : f.isSpent = true) : (f.shed removals).isSpent = true := by
  induction removals generalizing f with
  | nil => exact h
  | cons removal removals ih => exact ih (isSpent_lose h)

theorem kept_of_isSpent (h : f.isSpent = true) : f.kept = [] := if_pos h

theorem kept_of_not_isSpent (h : f.isSpent = false) : f.kept = [f] := by
  rw [kept, h, if_neg Bool.false_ne_true]

theorem flatMap_kept (f : Family) (removals : List Removal) :
    (f.kept.flatMap fun g => (g.shed removals).kept) = (f.shed removals).kept := by
  cases h : f.isSpent with
  | true => rw [kept_of_isSpent h, kept_of_isSpent (isSpent_shed h), List.flatMap_nil]
  | false => rw [kept_of_not_isSpent h, List.flatMap_singleton]

end Family

theorem flatMap_lose {families : List Family} {removal : Removal} (hp : Present families)
    (hno : ∀ f ∈ families, ¬ f.Holds removal) :
    (families.flatMap fun f => (f.lose removal).kept) = families := by
  have hsame : ∀ f ∈ families, (f.lose removal).kept = [f] := by
    intro f hf
    rw [Family.lose_of_not_holds (hno f hf), Family.kept_of_not_isSpent (hp f hf)]
  rw [List.flatMap_congr hsame, List.flatMap_singleton']

namespace Registry

variable {removal : Removal} {removals order : List Removal} {pid : Pid}

/-! ## One removal -/

def remove (reg : Registry) : Removal → Step Bool
  | .member pid => reg.dismiss pid
  | .file file => reg.disown file

theorem Reachable.remove (h : Reachable allocates limits reg) (removal : Removal) :
    Reachable allocates limits (reg.remove removal).registry := by
  cases removal with
  | member pid => exact h.call (.dismiss pid)
  | file file => exact h.call (.disown file)

theorem limits_remove (reg : Registry) (removal : Removal) :
    (reg.remove removal).registry.limits = reg.limits := by
  cases removal with
  | member pid =>
    have hsame : (reg.exec (fun _ => true) (.dismiss pid)).registry.limits = reg.limits :=
      limits_exec (.dismiss pid)
    exact hsame
  | file file => exact limits_disown

theorem remove_cases (h : SoundTable allocates reg.families) (removal : Removal) :
    (∃ f rest, f.Holds removal ∧ reg.families.Perm (f :: rest) ∧
      (reg.remove removal).registry.families.Perm ((f.lose removal).kept ++ rest)) ∨
    ((∀ f ∈ reg.families, ¬ f.Holds removal) ∧ (reg.remove removal).registry = reg) := by
  cases removal with
  | member pid =>
    rcases dismiss_cases h pid with turns | ⟨hsame, hno⟩
    · cases turns with
      | dismiss held old new => exact .inl ⟨_, _, held, old, new⟩
    · exact .inr ⟨fun f hf hp => hno f.root ⟨f, hf, rfl, hp⟩, hsame⟩
  | file file =>
    rcases disown_cases h file with turns | ⟨hsame, hno⟩
    · cases turns with
      | disown held old new => exact .inl ⟨_, _, held, old, new⟩
    · exact .inr ⟨fun f hf hp => hno f.root ⟨f, hf, rfl, hp⟩, hsame⟩

theorem perm_remove (h : SoundTable allocates reg.families) (hp : Present reg.families)
    (removal : Removal) :
    (reg.remove removal).registry.families.Perm
      (reg.families.flatMap fun f => (f.lose removal).kept) := by
  rcases remove_cases h removal with ⟨f, rest, hholds, old, new⟩ | ⟨hno, hsame⟩
  · have hrest : ∀ g ∈ rest, ¬ g.Holds removal := by
      intro g hg
      exact Family.not_holds_of_apart ((SoundTable.cons_iff.1 (h.perm old)).2.1 g hg) hholds
    have hpresent : Present rest := fun g hg => hp g (old.mem_iff.2 (List.mem_cons_of_mem _ hg))
    have hall := old.flatMap_right fun f => (f.lose removal).kept
    rw [List.flatMap_cons, flatMap_lose hpresent hrest] at hall
    exact new.trans hall.symm
  · rw [hsame, flatMap_lose hp hno]

theorem tracks_remove (h : SoundTable allocates reg.families) (removal : Removal) (pid : Pid) :
    (reg.remove removal).registry.tracks pid =
      if removal = .member pid then false else reg.tracks pid := by
  cases removal with
  | member p =>
    by_cases heq : p = pid
    · subst heq
      rw [if_pos rfl]
      exact tracks_dismiss h
    · have hiff (root : Pid) : HasMember (reg.dismiss p).registry.families root pid ↔
          HasMember reg.families root pid := by
        rw [hasMember_dismiss h]
        exact and_iff_right (Ne.symm heq)
      rw [if_neg (by simpa using heq), Bool.eq_iff_iff, h.tracks_iff]
      show (reg.dismiss p).registry.tracks pid = true ↔ _
      rw [(sound_dismiss h).tracks_iff]
      simp only [hiff]
  | file file =>
    have hs : SoundTable allocates (reg.disown file).registry.families :=
      (disown_changes h file).sound h
    rw [if_neg nofun, Bool.eq_iff_iff, h.tracks_iff]
    show (reg.disown file).registry.tracks pid = true ↔ _
    rw [hs.tracks_iff]
    simp only [hasMember_disown h]

/-! ## Lists of removals -/

def removeAll (reg : Registry) (removals : List Removal) : Registry :=
  removals.foldl (fun reg removal => (reg.remove removal).registry) reg

def answers (reg : Registry) : List Removal → List (Removal × Bool)
  | [] => []
  | removal :: removals =>
    let step := reg.remove removal
    (removal, step.answer) :: step.registry.answers removals

theorem limits_removeAll (reg : Registry) (removals : List Removal) :
    (reg.removeAll removals).limits = reg.limits := by
  induction removals generalizing reg with
  | nil => rfl
  | cons removal removals ih => exact (ih _).trans (limits_remove reg removal)

theorem perm_removeAll (h : Reachable allocates limits reg) (removals : List Removal) :
    (reg.removeAll removals).families.Perm
      (reg.families.flatMap fun f => (f.shed removals).kept) := by
  induction removals generalizing reg with
  | nil =>
    have hsame : (reg.families.flatMap fun f => f.kept) = reg.families := by
      rw [List.flatMap_congr fun f hf => Family.kept_of_not_isSpent (h.present f hf),
        List.flatMap_singleton']
    rw [show (reg.families.flatMap fun f => (f.shed []).kept) = _ from hsame]
    exact .refl _
  | cons removal removals ih =>
    have hfirst := perm_remove h.sound h.present removal
    have hlater := ih (h.remove removal)
    have hboth := hlater.trans (hfirst.flatMap_right fun f => (f.shed removals).kept)
    -- a family that is collected now would be gone in the end anyway
    rw [List.flatMap_assoc] at hboth
    simp only [Family.flatMap_kept] at hboth
    exact hboth

theorem tracks_removeAll (h : Reachable allocates limits reg) (removals : List Removal)
    (pid : Pid) : (reg.removeAll removals).tracks pid =
      if .member pid ∈ removals then false else reg.tracks pid := by
  induction removals generalizing reg with
  | nil => rfl
  | cons removal removals ih =>
    have hlater := ih (h.remove removal)
    rw [tracks_remove h.sound] at hlater
    refine hlater.trans ?_
    by_cases heq : removal = .member pid
    · simp [heq]
    · simp [heq, Ne.symm heq]

theorem count_answers (h : Reachable allocates limits reg) (removals : List Removal) (pid : Pid) :
    (reg.answers removals).count (.member pid, true) =
      if .member pid ∈ removals then (reg.tracks pid).toNat else 0 := by
  induction removals generalizing reg with
  | nil => rfl
  | cons removal removals ih =>
    have hlater := ih (h.remove removal)
    rw [tracks_remove h.sound] at hlater
    rw [answers, List.count_cons, hlater]
    by_cases heq : removal = .member pid
    · subst heq
      have hanswer : (reg.remove (.member pid)).answer = reg.tracks pid := answer_dismiss h.sound
      cases ht : reg.tracks pid <;> simp [hanswer, ht]
    · simp [heq, Ne.symm heq]

/-- Removals may be reordered at will: the same families are left, and as often as a process is
told to have left a family in one order, namely once if it was in one, it is in the other. -/
theorem removals_commute (h : Reachable allocates limits reg) (hperm : order.Perm removals) :
    (reg.removeAll order).Alike (reg.removeAll removals) ∧
    ∀ pid, (reg.answers order).count (.member pid, true) =
        (reg.answers removals).count (.member pid, true) ∧
      (reg.answers removals).count (.member pid, true) =
        if .member pid ∈ removals then (reg.tracks pid).toNat else 0 := by
  refine ⟨⟨?_, ?_⟩, fun pid => ⟨?_, count_answers h removals pid⟩⟩
  · rw [limits_removeAll, limits_removeAll]
  · have hleft := perm_removeAll h order
    simp only [Family.shed_perm hperm] at hleft
    exact hleft.trans (perm_removeAll h removals).symm
  · rw [count_answers h, count_answers h]
    simp only [hperm.mem_iff]

/-- Both orders leave the families of 30 and 40, in different slots. Of the two exits of 10, the one
that comes first finds it in a family. -/
theorem removals_commute_reversed :
    let reg := (empty {}).execAll (fun _ => true)
      [.found ⟨10⟩ .invalid .noRestriction, .enroll ⟨11⟩ ⟨10⟩, .claim ⟨1⟩ ⟨10⟩,
        .found ⟨20⟩ .invalid .protectDroppedFiles, .claim ⟨2⟩ ⟨20⟩,
        .found ⟨30⟩ .invalid .noRestriction, .found ⟨40⟩ .invalid .noRestriction]
    let removals : List Removal :=
      [.member ⟨10⟩, .member ⟨11⟩, .file ⟨1⟩, .member ⟨20⟩, .file ⟨2⟩, .member ⟨10⟩, .member ⟨99⟩]
    Reachable (fun _ => true) {} reg ∧ removals.reverse.Perm removals ∧
      (reg.removeAll removals).families.map Family.root = [⟨40⟩, ⟨30⟩] ∧
      (reg.removeAll removals.reverse).families.map Family.root = [⟨30⟩, ⟨40⟩] ∧
      (reg.removeAll removals.reverse).Alike (reg.removeAll removals) ∧
      reg.answers removals ≠ (reg.answers removals.reverse).reverse ∧
      (reg.answers removals.reverse).count (.member ⟨10⟩, true) = 1 := by
  intro reg removals
  have h : Reachable (fun _ => true) {} reg := Reachable.execAll _ .empty
  have hperm : removals.reverse.Perm removals := List.reverse_perm removals
  obtain ⟨halike, hcount⟩ := removals_commute h hperm
  have hone : (reg.answers removals).count (.member ⟨10⟩, true) = 1 := by decide
  exact ⟨h, hperm, by decide, by decide, halike, by decide, (hcount ⟨10⟩).1.trans hone⟩

end Registry

end Containment
