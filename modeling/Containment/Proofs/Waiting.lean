import Containment.Proofs.Ownership
import Containment.Session

/-!
# Those who wait to leave

Whoever waits is in no family but its own. When it leaves at last, it leaves that family empty, so
no other root is less busy than before, and one round of attempts lets everybody go who may
(`Releases.round`). Those who go lose their places, and nobody else does.
-/

namespace Containment

variable {allocates : Allocator} {reg : Registry} {root pid x : Pid}

/-! ## Leaving -/

namespace Registry

theorem sound_dismiss (h : SoundTable allocates reg.families) :
    SoundTable allocates (reg.dismiss pid).registry.families :=
  (dismiss_changes h pid).sound h

theorem hasMember_dismiss (h : SoundTable allocates reg.families) :
    HasMember (reg.dismiss pid).registry.families root x ↔
      x ≠ pid ∧ HasMember reg.families root x := by
  rcases dismiss_cases h pid with turns | ⟨hsame, hno⟩
  · exact turns.hasMember_dismiss h
  · rw [hsame]
    refine ⟨fun hx => ⟨?_, hx⟩, And.right⟩
    intro hxp
    subst hxp
    exact hno root hx

def Alone (reg : Registry) (pid : Pid) : Prop :=
  ∀ root, HasMember reg.families root pid → root = pid

theorem alone_of_busy (h : SoundTable allocates reg.families) (hb : reg.isBusyRoot pid = true) :
    reg.Alone pid := by
  intro root hm
  obtain ⟨hown, -⟩ := h.isBusyRoot_iff.1 hb
  exact h.root_of_member hm hown

theorem isBusyRoot_dismiss (h : SoundTable allocates reg.families) (ha : reg.Alone pid)
    (hb : reg.isBusyRoot pid = false) (x : Pid) :
    (reg.dismiss pid).registry.isBusyRoot x = reg.isBusyRoot x := by
  rw [Bool.eq_iff_iff, (sound_dismiss h).isBusyRoot_iff]
  constructor
  · intro hb'
    obtain ⟨hx, other, hne, ho⟩ := hb'
    rw [hasMember_dismiss h] at hx ho
    exact h.isBusyRoot_iff.2 ⟨hx.2, other, hne, ho.2⟩
  · intro hx
    have hxp : x ≠ pid := by
      intro heq
      subst heq
      rw [hb] at hx
      cases hx
    obtain ⟨hown, other, hne, ho⟩ := h.isBusyRoot_iff.1 hx
    have hop : other ≠ pid := by
      intro heq
      subst heq
      exact hxp (ha x ho)
    exact ⟨(hasMember_dismiss h).2 ⟨hxp, hown⟩, other, hne, (hasMember_dismiss h).2 ⟨hop, ho⟩⟩

end Registry

/-! ## One attempt -/

namespace Releases

variable {r : Releases}

theorem retry_busy (hb : r.session.registry.isBusyRoot pid = true) :
    (r.retry pid).session =
      { registry := r.session.registry, waiting := r.session.waiting ++ [pid] } := by
  simp [retry, Registry.leave, hb]

theorem retry_idle (hb : r.session.registry.isBusyRoot pid = false) :
    (r.retry pid).session =
      { registry := (r.session.registry.dismiss pid).registry, waiting := r.session.waiting } := by
  simp [retry, Registry.leave, hb]

/-! ## One round of attempts -/

/-- What a round of attempts by `pids` does to the session. -/
structure Round (allocates : Allocator) (before : Session) (pids : List Pid) (after : Session) :
    Prop where
  sound : SoundTable allocates after.registry.families
  busy : ∀ x, after.registry.isBusyRoot x = before.registry.isBusyRoot x
  waiting : after.waiting = before.waiting ++ pids.filter before.registry.isBusyRoot
  members : ∀ root x, HasMember after.registry.families root x ↔
    HasMember before.registry.families root x ∧ (x ∈ pids → before.registry.isBusyRoot x = true)

theorem Round.append {before mid after : Session} {first second : List Pid}
    (h : Round allocates before first mid) (h' : Round allocates mid second after) :
    Round allocates before (first ++ second) after where
  sound := h'.sound
  busy x := (h'.busy x).trans (h.busy x)
  waiting := by
    have hsame : mid.registry.isBusyRoot = before.registry.isBusyRoot := funext h.busy
    rw [h'.waiting, h.waiting, hsame, List.filter_append, List.append_assoc]
  members root x := by
    rw [h'.members, h.members, h.busy, List.mem_append, or_imp, and_assoc]

theorem retry_round (h : SoundTable allocates r.session.registry.families)
    (ha : r.session.registry.Alone pid) :
    Round allocates r.session [pid] (r.retry pid).session := by
  by_cases hb : r.session.registry.isBusyRoot pid = true
  · rw [retry_busy hb]
    refine ⟨h, fun _ => rfl, by simp [hb], fun root x => ?_⟩
    simp only [List.mem_singleton, iff_self_and]
    intro _ hx
    rw [hx]
    exact hb
  · rw [Bool.not_eq_true] at hb
    rw [retry_idle hb]
    refine ⟨Registry.sound_dismiss h, Registry.isBusyRoot_dismiss h ha hb, by simp [hb], ?_⟩
    intro root x
    rw [Registry.hasMember_dismiss h, List.mem_singleton, and_comm]
    refine and_congr_right fun _ => ⟨fun hne hx => absurd hx hne, ?_⟩
    intro hx heq
    subst heq
    rw [hx rfl] at hb
    cases hb

theorem round (pids : List Pid) (h : SoundTable allocates r.session.registry.families)
    (ha : ∀ pid ∈ pids, r.session.registry.Alone pid) :
    Round allocates r.session pids (pids.foldl retry r).session := by
  induction pids generalizing r with
  | nil => exact ⟨h, fun _ => rfl, by simp, by simp⟩
  | cons pid pids ih =>
    have hfirst := retry_round h (ha pid List.mem_cons_self)
    rw [List.foldl_cons]
    refine hfirst.append (ih hfirst.sound ?_)
    -- nobody gets into a family by an attempt of another
    intro p hp root hm
    exact ha p (List.mem_cons_of_mem _ hp) root ((hfirst.members root p).1 hm).1

end Releases

end Containment
