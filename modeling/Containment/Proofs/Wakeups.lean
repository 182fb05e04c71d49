import Containment.Proofs.Waiting
import Containment.Proofs.Watching

/-!
# Changes that wake those who wait

Whoever has to wait sleeps until something has changed. A busy root may leave when the last of the
others has left its family, or when all families are gone (`idle_of_exec`), and either wakes
everybody. A wait is a list of looks at the registry, which others change between them. It goes on
while each of them finds a busy root (`no_lost_wakeup`). A script that waits looks once, and so does
whoever was left waiting, each time it tries again (`run_wait`, `session_retry`).
-/

namespace Containment

variable {allocates : Allocator} {limits : Limits} {host : Host} {reg seen : Registry}
variable {root pid x : Pid} {call : Call}

/-! ## Who leaves by a call -/

def Call.leaver? : Call → Option Pid
  | .dismiss pid | .leave pid => some pid
  | _ => none

namespace Registry

theorem leave_busy (hb : reg.isBusyRoot pid = true) :
    reg.leave pid = { answer := .timedOut, registry := reg } := by
  rw [leave, if_pos hb]

theorem leave_idle (hb : reg.isBusyRoot pid = false) :
    reg.leave pid = { reg.dismiss pid with answer := .settled (reg.dismiss pid).answer } := by
  rw [leave, hb, if_neg Bool.false_ne_true]

theorem answer_leave_iff : (reg.leave pid).answer = .timedOut ↔ reg.isBusyRoot pid = true := by
  cases hb : reg.isBusyRoot pid with
  | true => simp [leave_busy hb]
  | false => simp [leave_idle hb]

theorem hasMember_exec (h : SoundTable allocates reg.families) (hreset : call ≠ .reset)
    (hx : call.leaver? ≠ some x) (hm : HasMember reg.families root x) :
    HasMember (reg.exec allocates call).registry.families root x := by
  have hother (p : Pid) (hp : some p ≠ some x) : x ≠ p := fun heq => hp (congrArg some heq.symm)
  cases exec_effect h call with
  | none same => rwa [same]
  | change _ makes turns =>
    cases makes with
    | found => exact turns.hasMember_found.2 (.inr hm)
    | enroll => exact (turns.hasMember_enroll h).2 (.inr hm)
    | adopt => exact (turns.hasMember_enroll h).2 (.inr hm)
    | claim => exact (turns.hasMember_claim h).2 hm
    | dismiss p => exact (turns.hasMember_dismiss h).2 ⟨hother p hx, hm⟩
    | leave p => exact (turns.hasMember_dismiss h).2 ⟨hother p hx, hm⟩
    | disown => exact turns.hasMember_disown.2 hm
    | reset => exact absurd rfl hreset
  | reclaim file owner mid _ _ freed next =>
    have hmid : HasMember mid root x := freed.hasMember_disown.2 hm
    rcases next with hrefused | ⟨claimant, turns⟩
    · rwa [hrefused]
    · exact (turns.hasMember_claim (freed.sound h)).2 hmid

theorem idle_of_exec (h : SoundTable allocates reg.families) (hreset : call ≠ .reset)
    (hb : reg.isBusyRoot pid = true)
    (hidle : (reg.exec allocates call).registry.isBusyRoot pid = false) :
    ∃ x, call.leaver? = some x ∧ HasMember reg.families pid x := by
  obtain ⟨hown, other, hne, hother⟩ := h.isBusyRoot_iff.1 hb
  by_contra hno
  have hstays (x : Pid) (hm : HasMember reg.families pid x) :
      HasMember (reg.exec allocates call).registry.families pid x :=
    hasMember_exec h hreset (fun hx => hno ⟨x, hx, hm⟩) hm
  have hbusy : (reg.exec allocates call).registry.isBusyRoot pid = true :=
    (sound_exec h call).isBusyRoot_iff.2
      ⟨hstays pid hown, other, hne, hstays other hother⟩
  rw [hidle] at hbusy
  cases hbusy

/-! ## Who is told -/

@[simp] theorem woken_settle {i : Nat} {f : Family} : (reg.settle i f).woken = true := by
  unfold settle
  split <;> rfl

theorem woken_dismiss (h : SoundTable allocates reg.families)
    (hm : HasMember reg.families root pid) : (reg.dismiss pid).woken = true := by
  obtain ⟨f, hf, -, hp⟩ := hm
  obtain ⟨i, hi⟩ := List.getElem?_of_mem hf
  unfold dismiss
  rw [(h.sound f hf).valid_of_member hp, h.slotOfMember? hi hp]
  exact woken_settle

theorem woken_of_idle (h : SoundTable allocates reg.families) (hb : reg.isBusyRoot pid = true)
    (hidle : (reg.exec allocates call).registry.isBusyRoot pid = false) :
    (reg.exec allocates call).woken = true := by
  by_cases hreset : call = .reset
  · subst hreset
    rfl
  obtain ⟨x, hx, hm⟩ := idle_of_exec h hreset hb hidle
  cases call with
  | dismiss p =>
    cases hx
    exact woken_dismiss h hm
  | leave p =>
    cases hx
    change (reg.leave x).registry.isBusyRoot pid = false at hidle
    show (reg.leave x).woken = true
    -- whoever has to wait itself leaves the registry as it is, and `pid` busy
    cases hbusy : reg.isBusyRoot x with
    | true =>
      rw [leave_busy hbusy, hb] at hidle
      cases hidle
    | false =>
      rw [leave_idle hbusy]
      exact woken_dismiss h hm
  | _ => cases hx

/-! ## Waiting -/

theorem answer_dismiss (h : SoundTable allocates reg.families) :
    (reg.dismiss pid).answer = reg.tracks pid := by
  rw [Bool.eq_iff_iff, h.tracks_iff]
  constructor
  · intro hgone
    by_contra hno
    rw [(dismiss_of_not_member (not_exists.1 hno)).1] at hgone
    cases hgone
  · rintro ⟨root, hm⟩
    exact (dismiss_of_member h hm).1

theorem dismiss_untracked (h : SoundTable allocates reg.families)
    (ht : reg.tracks pid = false) : (reg.dismiss pid).registry = reg := by
  refine (dismiss_of_not_member fun root hm => ?_).2
  rw [h.tracks_iff.2 ⟨root, hm⟩] at ht
  cases ht

theorem tracks_dismiss (h : SoundTable allocates reg.families) :
    (reg.dismiss pid).registry.tracks pid = false := by
  rw [← Bool.not_eq_true, (sound_dismiss h).tracks_iff]
  rintro ⟨root, hm⟩
  exact ((hasMember_dismiss h).1 hm).1 rfl

/-- What has happened when someone who waits looks again: calls of others, and perhaps its time is
over. -/
structure Look where
  calls : List Call
  expired : Bool

/-- Looks again and again whether `pid` may leave. When the wait comes to an end, this is the
registry that the last look has found, and what was done then. -/
def await (allocates : Allocator) (pid : Pid) :
    List Look → Registry → Option (Registry × Step Departure)
  | [], _ => none
  | look :: looks, reg =>
    let seen := reg.execAll allocates look.calls
    let step := seen.leave pid
    if step.answer = .timedOut ∧ look.expired = false then await allocates pid looks seen
    else some (seen, step)

theorem await_cons {look : Look} {looks : List Look} :
    reg.await allocates pid (look :: looks) =
      let seen := reg.execAll allocates look.calls
      let step := seen.leave pid
      if step.answer = .timedOut ∧ look.expired = false then seen.await allocates pid looks
      else some (seen, step) := rfl

theorem run_wait (limit : Option UInt64) :
    let run := (Script.wait pid limit).run host reg
    match reg.await allocates pid [⟨[], limit.any host.elapses⟩] with
    | some (_, step) => run.progress = .finished step.answer ∧ run.registry = step.registry
    | none => (∃ next, run.progress = .waiting pid next) ∧ run.registry = reg := by
  rw [await_cons]
  cases hb : reg.isBusyRoot pid with
  | true =>
    cases hl : limit.any host.elapses <;>
      simp [await, execAll, Script.wait, Script.run, leave_busy hb, hl]
  | false => simp [execAll, Script.wait, Script.run, leave_idle hb]

theorem session_retry (allocates : Allocator) (r : Releases) :
    (r.retry pid).session =
      match r.session.registry.await allocates pid [⟨[], false⟩] with
      | some (_, step) => { r.session with registry := step.registry }
      | none => { r.session with waiting := r.session.waiting ++ [pid] } := by
  rw [await_cons]
  cases hb : r.session.registry.isBusyRoot pid with
  | true => simp [await, execAll, leave_busy hb, Releases.retry_busy hb]
  | false => simp [execAll, leave_idle hb, Releases.retry_idle hb]

theorem await_eq_none_iff {looks : List Look} :
    reg.await allocates pid looks = none ↔ ∀ first look, first ++ [look] <+: looks →
      (reg.execAll allocates ((first ++ [look]).flatMap Look.calls)).isBusyRoot pid = true ∧
        look.expired = false := by
  induction looks generalizing reg with
  | nil => simp [await]
  | cons look looks ih =>
    -- what comes after the first look is a wait from the registry that this look has found
    have hlater (first : List Look) (last : Look) :
        reg.execAll allocates ((look :: first ++ [last]).flatMap Look.calls) =
          (reg.execAll allocates look.calls).execAll allocates
            ((first ++ [last]).flatMap Look.calls) := by
      rw [List.cons_append, List.flatMap_cons, execAll_append]
    rw [await_cons]
    dsimp only
    constructor
    · intro hnone first last hfirst
      split at hnone
      · rename_i hon
        cases first with
        | nil =>
          obtain ⟨rfl, -⟩ := List.cons_prefix_cons.1 hfirst
          refine ⟨?_, hon.2⟩
          rw [← answer_leave_iff]
          simpa using hon.1
        | cons other first =>
          obtain ⟨rfl, hrest⟩ := List.cons_prefix_cons.1 hfirst
          rw [hlater]
          exact ih.1 hnone first last hrest
      · cases hnone
    · intro hall
      obtain ⟨hbusy, htime⟩ := hall [] look (List.prefix_append [look] looks)
      rw [← answer_leave_iff] at hbusy
      rw [if_pos ⟨by simpa using hbusy, htime⟩, ih]
      intro first last hfirst
      rw [← hlater]
      exact hall (look :: first) last (List.cons_prefix_cons.2 ⟨rfl, hfirst⟩)

theorem of_await {looks : List Look} {step : Step Departure}
    (ha : reg.await allocates pid looks = some (seen, step)) :
    step = seen.leave pid ∧ ∃ first, first <+: looks ∧
      seen = reg.execAll allocates (first.flatMap Look.calls) := by
  induction looks generalizing reg with
  | nil => cases ha
  | cons look looks ih =>
    rw [await_cons] at ha
    dsimp only at ha
    split at ha
    · obtain ⟨hstep, first, hfirst, hseen⟩ := ih ha
      refine ⟨hstep, look :: first, List.cons_prefix_cons.2 ⟨rfl, hfirst⟩, ?_⟩
      rw [hseen, List.flatMap_cons, execAll_append]
    · cases ha
      exact ⟨rfl, [look], List.prefix_append [look] looks, by simp⟩

theorem leave_answers (h : SoundTable allocates reg.families) :
    ((reg.leave pid).answer = .timedOut →
      reg.isBusyRoot pid = true ∧ (reg.leave pid).registry = reg) ∧
    ∀ removed, (reg.leave pid).answer = .settled removed →
      reg.isBusyRoot pid = false ∧ (removed = true ↔ reg.tracks pid = true) ∧
        (reg.leave pid).registry.tracks pid = false := by
  cases hb : reg.isBusyRoot pid with
  | true =>
    rw [leave_busy hb]
    exact ⟨fun _ => ⟨rfl, rfl⟩, nofun⟩
  | false =>
    rw [leave_idle hb]
    refine ⟨nofun, fun removed hremoved => ?_⟩
    cases hremoved
    rw [answer_dismiss h]
    exact ⟨rfl, .rfl, tracks_dismiss h⟩

/-- A call after which a root is busy no longer wakes all who wait. A wait ends in a registry that
the calls of others have led to. Only if `pid` is a busy root there, it may be told that its time is
up, and then nothing changes. Otherwise it leaves, and is told whether a family has lost it. Until
then every look has found it a busy root with time left. Scripts and sessions wait by such looks. -/
theorem no_lost_wakeup (h : Reachable allocates limits reg) (pid : Pid) :
    (∀ call : Call, reg.isBusyRoot pid = true →
      (reg.exec allocates call).registry.isBusyRoot pid = false →
        (reg.exec allocates call).woken = true) ∧
    (∀ looks seen step, reg.await allocates pid looks = some (seen, step) →
      (∃ first, first <+: looks ∧ seen = reg.execAll allocates (first.flatMap Look.calls)) ∧
      (step.answer = .timedOut → seen.isBusyRoot pid = true ∧ step.registry = seen) ∧
      ∀ removed, step.answer = .settled removed → seen.isBusyRoot pid = false ∧
        (removed = true ↔ seen.tracks pid = true) ∧ step.registry.tracks pid = false) ∧
    (∀ looks, reg.await allocates pid looks = none ↔ ∀ first look, first ++ [look] <+: looks →
      (reg.execAll allocates ((first ++ [look]).flatMap Look.calls)).isBusyRoot pid = true ∧
        look.expired = false) ∧
    (∀ (host : Host) (limit : Option UInt64),
      let run := (Script.wait pid limit).run host reg
      match reg.await allocates pid [⟨[], limit.any host.elapses⟩] with
      | some (_, step) => run.progress = .finished step.answer ∧ run.registry = step.registry
      | none => (∃ next, run.progress = .waiting pid next) ∧ run.registry = reg) ∧
    ∀ r : Releases, r.session.registry = reg → (r.retry pid).session =
      match reg.await allocates pid [⟨[], false⟩] with
      | some (_, step) => { r.session with registry := step.registry }
      | none => { r.session with waiting := r.session.waiting ++ [pid] } := by
  refine ⟨fun call => woken_of_idle h.sound, fun looks seen step ha => ?_,
    fun looks => await_eq_none_iff, fun host limit => run_wait limit, fun r hr => ?_⟩
  · obtain ⟨rfl, first, hfirst, hseen⟩ := of_await ha
    exact ⟨⟨first, hfirst, hseen⟩, leave_answers (hseen ▸ sound_execAll h.sound _)⟩
  · subst hr
    exact session_retry allocates r

theorem no_lost_wakeup_last :
    let reg := (empty {}).execAll (fun _ => true)
      [.found ⟨40⟩ .invalid .noRestriction, .enroll ⟨41⟩ ⟨40⟩]
    let looks : List Look := [⟨[], false⟩, ⟨[.claim ⟨7⟩ ⟨40⟩], false⟩, ⟨[.leave ⟨41⟩], false⟩]
    Reachable (fun _ => true) {} reg ∧ reg.isBusyRoot ⟨40⟩ = true ∧
      (reg.exec (fun _ => true) (.leave ⟨41⟩)).registry.isBusyRoot ⟨40⟩ = false ∧
      (reg.exec (fun _ => true) (.leave ⟨41⟩)).woken = true ∧
      ∃ seen step, reg.await (fun _ => true) ⟨40⟩ looks = some (seen, step) ∧
        step.answer = .settled true ∧ seen.tracks ⟨40⟩ = true ∧
        step.registry.tracks ⟨40⟩ = false := by
  intro reg looks
  have h : Reachable (fun _ => true) {} reg := Reachable.execAll _ .empty
  have hb : reg.isBusyRoot ⟨40⟩ = true := by decide
  have hidle : (reg.exec (fun _ => true) (.leave ⟨41⟩)).registry.isBusyRoot ⟨40⟩ = false := by
    decide
  have hend : ∃ seen step, reg.await (fun _ => true) ⟨40⟩ looks = some (seen, step) ∧
      step.answer = .settled true := ⟨_, _, rfl, rfl⟩
  obtain ⟨seen, step, ha, hanswer⟩ := hend
  obtain ⟨hwakes, hends, -⟩ := no_lost_wakeup h ⟨40⟩
  obtain ⟨-, htracked, hgone⟩ := (hends looks seen step ha).2.2 true hanswer
  exact ⟨h, hb, hidle, hwakes _ hb hidle, seen, step, ha, hanswer, htracked.1 rfl, hgone⟩

end Registry

end Containment
