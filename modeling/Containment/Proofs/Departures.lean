import Containment.Proofs.Reuse
import Containment.Proofs.Wakeups

/-!
# Releases in any order

Between two moves of a session only busy roots wait, as each move lets everybody go who may. One
call makes at most one root idle, namely that of the family which somebody has left. So all who are
released after a move wait on one pid, and it does not matter in which order they try: the first
one takes the process out, if it is still there, and all others find it gone
(`released_in_any_order`).
-/

namespace Containment

variable {allocates : Allocator} {host : Host} {limits : Limits} {reg : Registry} {s : Session}
variable {pid : Pid} {call : Call}

/-! ## Rounds in which one pid is released -/

/-- The answers to `n` attempts of `pid` that succeed. Only the first can find it in a family. -/
def Release.answers (pid : Pid) (tracked : Bool) : Nat → List Release
  | 0 => []
  | n + 1 => ⟨pid, tracked⟩ :: List.replicate n ⟨pid, false⟩

namespace Release

variable {tracked : Bool} {n : Nat}

theorem answers_false : answers pid false n = List.replicate n ⟨pid, false⟩ := by
  cases n <;> rfl

theorem pid_of_answers : ∀ release ∈ answers pid tracked n, release.pid = pid := by
  cases n with
  | zero => simp [answers]
  | succ n =>
    intro release hr
    rcases List.mem_cons.1 hr with rfl | hr
    · rfl
    · rw [List.eq_of_mem_replicate hr]

theorem length_answers : (answers pid tracked n).length = n := by
  cases n with
  | zero => rfl
  | succ n => rw [answers, List.length_cons, List.length_replicate]

theorem countP_answers :
    (answers pid tracked n).countP Release.removed =
      if answers pid tracked n = [] then 0 else tracked.toNat := by
  cases n with
  | zero => rfl
  | succ n => cases tracked <;> simp [answers, List.countP_replicate]

end Release

namespace Releases

variable {r : Releases} {order : List Pid}

theorem released_retry_busy (hb : r.session.registry.isBusyRoot pid = true) :
    (r.retry pid).released = r.released := by
  rw [retry, Registry.leave_busy hb]

theorem released_retry_idle (hb : r.session.registry.isBusyRoot pid = false) :
    (r.retry pid).released =
      r.released ++ [⟨pid, (r.session.registry.dismiss pid).answer⟩] := by
  rw [retry, Registry.leave_idle hb]

/-- How many in `order` may leave now. -/
def idleIn (reg : Registry) (order : List Pid) : Nat :=
  order.countP fun q => !reg.isBusyRoot q

theorem idleIn_cons_busy (hb : reg.isBusyRoot pid = true) :
    idleIn reg (pid :: order) = idleIn reg order := by
  simp [idleIn, hb]

theorem idleIn_cons_idle (hb : reg.isBusyRoot pid = false) :
    idleIn reg (pid :: order) = idleIn reg order + 1 := by
  simp [idleIn, hb]

theorem Round.idleIn {before after : Session} {pids : List Pid}
    (h : Round allocates before pids after) :
    idleIn after.registry order = idleIn before.registry order := by
  have hsame : after.registry.isBusyRoot = before.registry.isBusyRoot := funext h.busy
  rw [Releases.idleIn, Releases.idleIn, hsame]

/-- What a round of attempts does if nobody but those that wait on `pid` may leave. -/
theorem foldl_retry (h : SoundTable allocates r.session.registry.families)
    (ha : ∀ q ∈ order, r.session.registry.Alone q)
    (hone : ∀ q ∈ order, r.session.registry.isBusyRoot q = false → q = pid) :
    (order.foldl retry r).released = r.released ++ Release.answers pid
        (r.session.registry.tracks pid) (idleIn r.session.registry order) ∧
      (order.foldl retry r).session.registry =
        if idleIn r.session.registry order = 0 then r.session.registry
        else (r.session.registry.dismiss pid).registry := by
  induction order generalizing r with
  | nil => simp [idleIn, Release.answers]
  | cons q order ih =>
    obtain ⟨hq, hrest⟩ := List.forall_mem_cons.1 ha
    obtain ⟨honeq, honerest⟩ := List.forall_mem_cons.1 hone
    have hround := retry_round h hq
    have ih := ih hround.sound
      (fun p hp root hm => hrest p hp root ((hround.members root p).1 hm).1)
      (fun p hp hb => honerest p hp ((hround.busy p).symm.trans hb))
    rw [hround.idleIn] at ih
    rw [List.foldl_cons]
    cases hb : r.session.registry.isBusyRoot q with
    | true =>
      rw [released_retry_busy hb, retry_busy hb] at ih
      rw [idleIn_cons_busy hb]
      exact ih
    | false =>
      -- from here on the process is gone, so that later attempts find nothing and change nothing
      obtain rfl := honeq hb
      have hsound : SoundTable allocates (r.session.registry.dismiss q).registry.families :=
        Registry.sound_dismiss h
      have hgone : (r.session.registry.dismiss q).registry.tracks q = false :=
        Registry.tracks_dismiss h
      rw [released_retry_idle hb, retry_idle hb] at ih
      dsimp only at ih
      rw [hgone, Registry.dismiss_untracked hsound hgone, Release.answers_false, ite_self,
        Registry.answer_dismiss h, List.append_assoc] at ih
      rw [idleIn_cons_idle hb, if_neg (Nat.succ_ne_zero _)]
      exact ih

theorem foldl_retry_empty (h : r.session.registry.families = []) :
    (order.foldl retry r).released = r.released ++ order.map (⟨·, false⟩) ∧
      (order.foldl retry r).session = r.session := by
  induction order generalizing r with
  | nil => simp
  | cons q order ih =>
    have hb : r.session.registry.isBusyRoot q = false := by
      simp [Registry.isBusyRoot, Registry.slotOfRoot?, Slot.find?, h]
    obtain ⟨hanswer, hsame⟩ : (r.session.registry.dismiss q).answer = false ∧
        (r.session.registry.dismiss q).registry = r.session.registry := by
      apply Registry.dismiss_of_not_member
      simp [HasMember, h]
    have hsession : (r.retry q).session = r.session := by
      rw [retry_idle hb, hsame]
    rw [List.foldl_cons]
    rw [← hsession] at h
    obtain ⟨hreleased, hrest⟩ := ih h
    rw [hreleased, hrest, hsession, released_retry_idle hb, hanswer, List.append_assoc]
    exact ⟨rfl, rfl⟩

end Releases

/-! ## Calls and those who wait -/

namespace Registry

theorem alone_exec (h : SoundTable allocates reg.families) (hb : reg.isBusyRoot pid = true) :
    (reg.exec allocates call).registry.Alone pid := by
  intro root hm
  obtain ⟨hown, -⟩ := h.isBusyRoot_iff.1 hb
  by_cases hreset : call = .reset
  · subst hreset
    obtain ⟨f, hf, -⟩ := hm
    cases hf
  by_cases hx : call.leaver? = some pid
  · -- only without waiting can the root of a busy family get out of it
    cases call with
    | dismiss p =>
      cases hx
      exact absurd rfl ((hasMember_dismiss h).1 hm).1
    | leave p =>
      cases hx
      change HasMember (reg.leave pid).registry.families root pid at hm
      rw [leave_busy hb] at hm
      exact h.root_of_member hm hown
    | _ => cases hx
  · exact (sound_exec h call).root_of_member hm (hasMember_exec h hreset hx hown)

theorem eq_of_idle {other : Pid} (h : SoundTable allocates reg.families) (hreset : call ≠ .reset)
    (hb : reg.isBusyRoot pid = true) (hb' : reg.isBusyRoot other = true)
    (hidle : (reg.exec allocates call).registry.isBusyRoot pid = false)
    (hidle' : (reg.exec allocates call).registry.isBusyRoot other = false) : pid = other := by
  obtain ⟨x, hx, hm⟩ := idle_of_exec h hreset hb hidle
  obtain ⟨y, hy, hm'⟩ := idle_of_exec h hreset hb' hidle'
  -- both have lost the one process that the call takes out
  obtain rfl : x = y := Option.some.inj (hx.symm.trans hy)
  exact h.root_of_member hm hm'

end Registry

/-! ## Moves -/

/-- What happens in a session: somebody makes a call, or waits to leave without a limit. -/
inductive Move where
  | call (call : Call)
  | wait (pid : Pid)

namespace Move

@[reducible] def Answer : Move → Type
  | .call c => c.Answer
  | .wait _ => Departure

def script : (move : Move) → Script move.Answer
  | .call c => Script.ask c
  | .wait pid => Script.wait pid none

def first : Move → Call
  | .call c => c
  | .wait pid => .leave pid

end Move

namespace Session

variable {move : Move} {order : List Pid}

def advance {α : Type} (host : Host) (s : Session) (script : Script α) : Session :=
  let run := script.run host s.registry
  { registry := run.registry
    waiting :=
      match run.progress with
      | .finished _ => s.waiting
      | .waiting pid _ => s.waiting ++ [pid] }

def releaseIn (s : Session) (order : List Pid) : Releases :=
  order.foldl Releases.retry { session := { s with waiting := [] } }

theorem releaseIn_waiting : s.releaseIn s.waiting = s.release := rfl

theorem session_perform {α : Type} (script : Script α) :
    (s.perform host script).session = (s.advance host script).release.session := by
  cases h : (script.run host s.registry).progress <;> simp [perform, advance, h]

theorem advance_wait_busy (hb : s.registry.isBusyRoot pid = true) :
    s.advance host (Move.wait pid).script = { s with waiting := s.waiting ++ [pid] } := by
  simp [advance, Move.script, Script.wait, Script.run, Registry.leave_busy hb]

theorem advance_wait_idle (hb : s.registry.isBusyRoot pid = false) :
    s.advance host (Move.wait pid).script =
      { s with registry := (s.registry.dismiss pid).registry } := by
  simp [advance, Move.script, Script.wait, Script.run, Registry.leave_idle hb]

/-- What a move has done when nobody has tried again yet. -/
structure Moved (allocates : Allocator) (s : Session) (move : Move) (mid : Session) : Prop where
  registry : mid.registry = (s.registry.exec allocates move.first).registry
  busy : ∀ pid ∈ mid.waiting, s.registry.isBusyRoot pid = true

theorem advance_moved (hs : s.Settled host.allocates) (move : Move) :
    Moved host.allocates s move (s.advance host move.script) := by
  cases move with
  | call c => exact ⟨rfl, hs.busy⟩
  | wait pid =>
    have hleave : s.registry.exec host.allocates (.leave pid) = s.registry.leave pid := rfl
    cases hb : s.registry.isBusyRoot pid with
    | true =>
      rw [advance_wait_busy hb]
      refine ⟨?_, List.forall_mem_append.2 ⟨hs.busy, List.forall_mem_singleton.2 hb⟩⟩
      rw [Move.first, hleave, Registry.leave_busy hb]
    | false =>
      rw [advance_wait_idle hb]
      refine ⟨?_, hs.busy⟩
      rw [Move.first, hleave, Registry.leave_idle hb]

namespace Moved

variable {mid : Session}

theorem sound (h : Moved allocates s move mid) (hs : s.Settled allocates) :
    SoundTable allocates mid.registry.families := by
  rw [h.registry]
  exact Registry.sound_exec hs.sound move.first

theorem alone (h : Moved allocates s move mid) (hs : s.Settled allocates) (hq : pid ∈ mid.waiting) :
    mid.registry.Alone pid := by
  rw [h.registry]
  exact Registry.alone_exec hs.sound (h.busy pid hq)

theorem exists_idle (h : Moved allocates s move mid) (hs : s.Settled allocates)
    (hreset : move.first ≠ .reset) :
    ∃ pid, ∀ q ∈ mid.waiting, mid.registry.isBusyRoot q = false → q = pid := by
  by_cases hex : ∃ pid ∈ mid.waiting, mid.registry.isBusyRoot pid = false
  · obtain ⟨pid, hpid, hidle⟩ := hex
    refine ⟨pid, fun q hq hidle' => ?_⟩
    rw [h.registry] at hidle hidle'
    exact Registry.eq_of_idle hs.sound hreset (h.busy q hq) (h.busy pid hpid) hidle' hidle
  · exact ⟨.invalid, fun q hq hidle => absurd ⟨q, hq, hidle⟩ hex⟩

end Moved

/-! ## Runs -/

/-- The sessions that moves lead to, when those who wait may try again in any order. -/
inductive Reached (host : Host) (limits : Limits) : Session → Prop
  | start : Reached host limits (.start limits)
  | move {s : Session} {order : List Pid} (move : Move) : Reached host limits s →
    order.Perm (s.advance host move.script).waiting →
    Reached host limits ((s.advance host move.script).releaseIn order).session

theorem releaseIn_round {mid : Session} (h : SoundTable allocates mid.registry.families)
    (ha : ∀ pid ∈ order, mid.registry.Alone pid) :
    Releases.Round allocates { mid with waiting := [] } order (mid.releaseIn order).session :=
  Releases.round (r := { session := { mid with waiting := [] } }) order h ha

theorem Reached.settled (h : Reached host limits s) : s.Settled host.allocates := by
  induction h with
  | start => exact settled_of_reachable .empty
  | move move _ hperm ih =>
    have hmoved := advance_moved ih move
    have hround := releaseIn_round (hmoved.sound ih)
      fun pid hp => hmoved.alone ih (hperm.mem_iff.1 hp)
    refine ⟨hround.sound, fun pid hp => ?_⟩
    rw [hround.waiting, List.nil_append, List.mem_filter] at hp
    rw [hround.busy]
    exact hp.2

theorem Reached.perform (h : Reached host limits s) (move : Move) :
    Reached host limits (s.perform host move.script).session := by
  rw [session_perform]
  exact .move move h (.refl _)

/-- The session after a list of moves, when those who wait try again in the order in which they
came. -/
def play (host : Host) (s : Session) (moves : List Move) : Session :=
  moves.foldl (fun s move => (s.perform host move.script).session) s

theorem Reached.play (h : Reached host limits s) (moves : List Move) :
    Reached host limits (s.play host moves) := by
  induction moves generalizing s with
  | nil => exact h
  | cons move moves ih => exact ih (h.perform move)

/-! ## Releases -/

/-- What comes of it when those who wait after a move try again in this order, and `pid` is the one
that may leave. -/
structure Settles (mid : Session) (pid : Pid) (order : List Pid) : Prop where
  released : (mid.releaseIn order).released = mid.release.released
  registry : (mid.releaseIn order).session.registry = mid.release.session.registry
  waiting : (mid.releaseIn order).session.waiting = order.filter mid.registry.isBusyRoot
  all : (mid.releaseIn order).released.length = order.countP fun q => !mid.registry.isBusyRoot q
  pids : ∀ release ∈ (mid.releaseIn order).released, release.pid = pid
  removed : (mid.releaseIn order).released.countP Release.removed =
    if (mid.releaseIn order).released = [] then 0 else (mid.registry.tracks pid).toNat
  busy : ∀ first, first <+: order → ∀ x,
    (mid.releaseIn first).session.registry.isBusyRoot x = mid.registry.isBusyRoot x

theorem releaseIn_eq {mid : Session} (h : SoundTable allocates mid.registry.families)
    (ha : ∀ q ∈ order, mid.registry.Alone q)
    (hone : ∀ q ∈ order, mid.registry.isBusyRoot q = false → q = pid) :
    (mid.releaseIn order).released = Release.answers pid (mid.registry.tracks pid)
        (Releases.idleIn mid.registry order) ∧
      (mid.releaseIn order).session.registry =
        if Releases.idleIn mid.registry order = 0 then mid.registry
        else (mid.registry.dismiss pid).registry := by
  have hround :=
    Releases.foldl_retry (r := { session := { mid with waiting := [] } }) h ha hone
  rw [List.nil_append] at hround
  exact hround

theorem settles {mid : Session} (h : SoundTable allocates mid.registry.families)
    (ha : ∀ q ∈ mid.waiting, mid.registry.Alone q)
    (hone : ∀ q ∈ mid.waiting, mid.registry.isBusyRoot q = false → q = pid)
    (hperm : order.Perm mid.waiting) : mid.Settles pid order := by
  have ha' : ∀ q ∈ order, mid.registry.Alone q := fun q hq => ha q (hperm.mem_iff.1 hq)
  obtain ⟨hreleased, hregistry⟩ := releaseIn_eq h ha' fun q hq => hone q (hperm.mem_iff.1 hq)
  obtain ⟨hreleased', hregistry'⟩ := releaseIn_eq h ha hone
  rw [releaseIn_waiting] at hreleased' hregistry'
  -- the order in which they try does not change how many of them may leave
  have hcount : Releases.idleIn mid.registry order = Releases.idleIn mid.registry mid.waiting :=
    hperm.countP_eq _
  refine ⟨?_, ?_, (releaseIn_round h ha').waiting, ?_, ?_, ?_, ?_⟩
  · rw [hreleased, hreleased', hcount]
  · rw [hregistry, hregistry', hcount]
  · rw [hreleased, Release.length_answers]
    rfl
  · rw [hreleased]
    exact Release.pid_of_answers
  · rw [hreleased]
    exact Release.countP_answers
  · intro first hfirst
    exact (releaseIn_round h fun q hq => ha' q (hfirst.subset hq)).busy

/-- After a move all who may leave wait on one pid. In whatever order they try, the same registry is
left, and the same answers are given: of those that leave one finds its process in a family, if it
is in one at all. No attempt makes a root idle that was busy. When the families have been forgotten,
all leave, and none finds its process. -/
theorem released_in_any_order (h : Reached host limits s) (move : Move) :
    let mid := s.advance host move.script
    (move ≠ .call .reset → ∃ pid, ∀ order, order.Perm mid.waiting → mid.Settles pid order) ∧
    (move = .call .reset → ∀ order, order.Perm mid.waiting →
      (mid.releaseIn order).released = order.map (⟨·, false⟩) ∧
        (mid.releaseIn order).session = { mid with waiting := [] }) := by
  intro mid
  have hs := h.settled
  have hmoved := advance_moved hs move
  constructor
  · intro hmove
    have hreset : move.first ≠ .reset := by
      cases move with
      | call c => exact fun hc => hmove (congrArg Move.call hc)
      | wait pid => nofun
    obtain ⟨pid, hone⟩ := hmoved.exists_idle hs hreset
    exact ⟨pid, fun order => settles (hmoved.sound hs) (fun q hq => hmoved.alone hs hq) hone⟩
  · rintro rfl order -
    have hempty : mid.registry.families = [] := rfl
    exact Releases.foldl_retry_empty (r := { session := { mid with waiting := [] } }) hempty

def crossing : Session :=
  (start {}).play patientHost
    [.call (.found ⟨40⟩ .invalid .noRestriction), .call (.enroll ⟨41⟩ ⟨40⟩), .wait ⟨40⟩, .wait ⟨40⟩,
      .call (.found ⟨50⟩ .invalid .noRestriction), .call (.enroll ⟨51⟩ ⟨50⟩), .wait ⟨50⟩]

/-- 41 leaves as well. Of the exits of 40, which try last here, one finds it. -/
theorem released_in_any_order_twice :
    let mid := crossing.advance patientHost (Move.wait ⟨41⟩).script
    Reached patientHost {} crossing ∧ mid.waiting = [⟨40⟩, ⟨40⟩, ⟨50⟩] ∧
      mid.release.released = [⟨⟨40⟩, true⟩, ⟨⟨40⟩, false⟩] ∧
      mid.Settles ⟨40⟩ [⟨50⟩, ⟨40⟩, ⟨40⟩] := by
  intro mid
  have hreached : Reached patientHost {} crossing := Reached.start.play _
  have hwaiting : mid.waiting = [⟨40⟩, ⟨40⟩, ⟨50⟩] := by decide +kernel
  have hreleased : mid.release.released = [⟨⟨40⟩, true⟩, ⟨⟨40⟩, false⟩] := by decide +kernel
  obtain ⟨pid, hall⟩ := (released_in_any_order hreached (.wait ⟨41⟩)).1 nofun
  have hperm : ([⟨50⟩, ⟨40⟩, ⟨40⟩] : List Pid).Perm mid.waiting := by
    rw [hwaiting]
    decide
  have hsettles : mid.Settles pid [⟨50⟩, ⟨40⟩, ⟨40⟩] := hall _ hperm
  have hpid : ⟨40⟩ = pid := by
    refine hsettles.pids ⟨⟨40⟩, true⟩ ?_
    rw [hsettles.released, hreleased]
    exact List.mem_cons_self
  exact ⟨hreached, hwaiting, hreleased, hpid ▸ hsettles⟩

end Session

end Containment
