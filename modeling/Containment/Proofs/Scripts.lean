import Containment.Script

/-!
# Rules for scripts

`Ends` says of a script that it runs to its end without having to wait, and what it answers and
leaves then. There are rules for the steps of a script, and `Ends.bind` puts them together. `Yields`
names the answer and all that is left, with the processes that have been terminated.
-/

namespace Containment.Script

variable {α β : Type} {host : Host} {reg : Registry}

instance [DecidableEq α] (progress : Progress α) (answer : α) :
    Decidable (progress = .finished answer) :=
  match progress with
  | .finished other => decidable_of_iff (other = answer) (by simp)
  | .waiting .. => isFalse nofun

/-! ## Runs, one script after the other -/

@[simp] theorem Run.progress_after {log : List Notice} {killed : List Pid} {woken : Bool}
    {run : Run α} : (run.after log killed woken).progress = run.progress := rfl

@[simp] theorem Run.registry_after {log : List Notice} {killed : List Pid} {woken : Bool}
    {run : Run α} : (run.after log killed woken).registry = run.registry := rfl

theorem Run.after_after {first second : List Notice} {killed killed' : List Pid}
    {woken woken' : Bool} {run : Run α} :
    (run.after second killed' woken').after first killed woken =
      run.after (first ++ second) (killed ++ killed') (woken || woken') := by
  simp [Run.after, List.append_assoc, Bool.or_assoc]

theorem run_bind {script : Script α} {k : α → Script β} {answer : α}
    (h : (script.run host reg).progress = .finished answer) :
    (script.bind k).run host reg =
      ((k answer).run host (script.run host reg).registry).after (script.run host reg).log
        (script.run host reg).killed (script.run host reg).woken := by
  induction script generalizing reg with
  | done a =>
    cases h
    simp [Script.bind, run, Run.after]
  | call c next ih =>
    simp only [run, Run.progress_after] at h
    simp only [Script.bind, run]
    rw [ih _ h, Run.after_after]
    rfl
  | await pid limit next ih =>
    simp only [Script.bind, run] at h ⊢
    split at h
    · rw [Run.progress_after] at h
      rw [ih _ h, Run.after_after]
      rfl
    · split at h
      · rw [Run.progress_after] at h
        rename_i hlimit
        rw [if_pos hlimit, if_pos hlimit, ih _ h, Run.after_after]
        rfl
      · cases h
  | note notice next ih =>
    simp only [run, Run.progress_after] at h
    simp only [Script.bind, run]
    rw [ih h, Run.after_after]
    rfl
  | probe pid next ih =>
    simp only [run] at h
    simp only [Script.bind, run]
    exact ih _ h
  | kill pid next ih =>
    simp only [run, Run.progress_after] at h
    simp only [Script.bind, run]
    rw [ih _ h, Run.after_after]
    rfl

/-! ## Scripts that come to their end -/

/-- The script ends without waiting, with an answer and a registry of which `post` holds. -/
def Ends (host : Host) (script : Script α) (reg : Registry) (post : α → Registry → Prop) : Prop :=
  ∃ answer, (script.run host reg).progress = .finished answer ∧
    post answer (script.run host reg).registry

namespace Ends

variable {post post' : α → Registry → Prop}

theorem pure {answer : α} (h : post answer reg) : Ends host (Pure.pure answer) reg post :=
  ⟨answer, rfl, h⟩

theorem bind {script : Script α} {k : α → Script β} {post : β → Registry → Prop}
    (h : Ends host script reg fun answer after => Ends host (k answer) after post) :
    Ends host (script >>= k) reg post := by
  obtain ⟨a, ha, b, hb, hpost⟩ := h
  have hrun := run_bind (k := k) ha
  refine ⟨b, ?_, ?_⟩
  · show ((script.bind k).run host reg).progress = _
    rw [hrun, Run.progress_after, hb]
  · show post b ((script.bind k).run host reg).registry
    rw [hrun, Run.registry_after]
    exact hpost

theorem mono {script : Script α} (h : Ends host script reg post)
    (himp : ∀ answer after, post answer after → post' answer after) :
    Ends host script reg post' := by
  obtain ⟨a, ha, hpost⟩ := h
  exact ⟨a, ha, himp _ _ hpost⟩

theorem ask {c : Call} {post : c.Answer → Registry → Prop}
    (h : post (reg.exec host.allocates c).answer (reg.exec host.allocates c).registry) :
    Ends host (Script.ask c) reg post :=
  ⟨_, rfl, h⟩

theorem discard {script : Script α} {post : Unit → Registry → Prop}
    (h : Ends host script reg fun _ after => post () after) :
    Ends host (discard script) reg post :=
  bind (h.mono fun _ _ => pure)

theorem say {notice : Notice} {post : Unit → Registry → Prop} (h : post () reg) :
    Ends host (Script.say notice) reg post :=
  ⟨_, rfl, h⟩

theorem isRunning {pid : Pid} {post : Bool → Registry → Prop} (h : post (host.isRunning pid) reg) :
    Ends host (Script.isRunning pid) reg post :=
  ⟨_, rfl, h⟩

theorem wait_idle {pid : Pid} {limit : Option UInt64} {post : Departure → Registry → Prop}
    (hb : reg.isBusyRoot pid = false)
    (h : post (.settled (reg.dismiss pid).answer) (reg.dismiss pid).registry) :
    Ends host (Script.wait pid limit) reg post := by
  refine ⟨.settled (reg.dismiss pid).answer, ?_, ?_⟩
  · simp [wait, run, Registry.leave, hb]
  · simpa [wait, run, Registry.leave, hb] using h

theorem wait_elapsed {pid : Pid} {limit : Option UInt64} {post : Departure → Registry → Prop}
    (hb : reg.isBusyRoot pid = true) (hl : limit.any host.elapses = true)
    (h : post .timedOut reg) : Ends host (Script.wait pid limit) reg post := by
  refine ⟨.timedOut, ?_, ?_⟩
  · simp [wait, run, Registry.leave, hb, hl]
  · simpa [wait, run, Registry.leave, hb, hl] using h

end Ends

/-! ## All that a script leaves -/

/-- The script ends without waiting, with this answer. It leaves the registry `after`, and the
processes in `killed` are gone. -/
structure Yields (host : Host) (script : Script α) (reg : Registry) (answer : α) (after : Registry)
    (killed : List Pid) : Prop where
  progress : (script.run host reg).progress = .finished answer
  registry : (script.run host reg).registry = after
  killed : (script.run host reg).killed = killed

namespace Yields

variable {mid after : Registry} {first second : List Pid}

theorem pure {answer : α} : Yields host (Pure.pure answer) reg answer reg [] := ⟨rfl, rfl, rfl⟩

theorem bind {script : Script α} {k : α → Script β} {a : α} {b : β}
    (h : Yields host script reg a mid first) (h' : Yields host (k a) mid b after second) :
    Yields host (script >>= k) reg b after (first ++ second) := by
  have hrun := run_bind (k := k) h.progress
  rw [h.registry, h.killed] at hrun
  refine ⟨?_, ?_, ?_⟩
  · show ((script.bind k).run host reg).progress = _
    rw [hrun, Run.progress_after, h'.progress]
  · show ((script.bind k).run host reg).registry = _
    rw [hrun, Run.registry_after, h'.registry]
  · show ((script.bind k).run host reg).killed = _
    rw [hrun]
    exact congrArg (first ++ ·) h'.killed

theorem ask {c : Call} : Yields host (Script.ask c) reg (reg.exec host.allocates c).answer
    (reg.exec host.allocates c).registry [] := ⟨rfl, rfl, rfl⟩

theorem ask_eq {c : Call} {answer : c.Answer}
    (ha : (reg.exec host.allocates c).answer = answer)
    (hr : (reg.exec host.allocates c).registry = after) :
    Yields host (Script.ask c) reg answer after [] := by
  rw [← ha, ← hr]
  exact ask

theorem discard {script : Script α} {answer : α} (h : Yields host script reg answer after first) :
    Yields host (discard script) reg () after first := by
  have hrun : Yields host (script >>= fun _ => Pure.pure ()) reg () after (first ++ []) :=
    h.bind .pure
  rwa [List.append_nil] at hrun

theorem say {notice : Notice} : Yields host (Script.say notice) reg () reg [] := ⟨rfl, rfl, rfl⟩

theorem terminate {pid : Pid} (h : host.terminate pid = .ok ()) :
    Yields host (Script.terminate pid) reg (.ok ()) reg [pid] := by
  refine ⟨?_, rfl, ?_⟩
  · simp [Script.terminate, run, h]
  · simp [Script.terminate, run, Run.after, h, Except.isOk, Except.toBool]

theorem terminate_error {pid : Pid} {failure : TerminationFailure}
    (h : host.terminate pid = .error failure) :
    Yields host (Script.terminate pid) reg (.error failure) reg [] := by
  refine ⟨?_, rfl, ?_⟩
  · simp [Script.terminate, run, h]
  · simp [Script.terminate, run, Run.after, h, Except.isOk, Except.toBool]

end Yields

end Containment.Script
