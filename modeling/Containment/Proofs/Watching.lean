import Containment.Proofs.Ownership
import Containment.Proofs.Scripts
import Containment.Watch

/-!
# What an event does to the table

An event that is no exit is ignored, or its process is to be let in, with a second attempt when the
first family has refused it. So one attempt has the last word, and the reaction is an answer to that
one (`handle_concludes`). Nobody loses a place by it, and a process that is reported as attached has
one afterwards (`handle_ends`). An exit takes the process out, at once or when its time is up
(`exited_ends`), or it waits (`exited_waits`).
-/

namespace Containment

variable {allocates : Allocator} {host : Host} {settings : WatchSettings}
variable {reg before after : Registry} {pid parent creator : Pid} {file : FileId}
variable {answer : Except Refusal Unit} {blocksDead : Bool} {cause : Refusal}

/-! ## Nobody is lost -/

structure Grows (allocates : Allocator) (before after : Registry) : Prop where
  sound : SoundTable allocates after.families
  keeps : ∀ root x, HasMember before.families root x → HasMember after.families root x

theorem Grows.refl (h : SoundTable allocates reg.families) : Grows allocates reg reg :=
  ⟨h, fun _ _ hm => hm⟩

def Taken (answer : Except Refusal Unit) : Prop :=
  answer = .ok () ∨ answer = .error .alreadyExists

theorem taken_error_iff : Taken (.error cause) ↔ cause = .alreadyExists := by
  simp [Taken]

namespace Registry.Intake

variable {step : Step (Except Refusal Unit)}

theorem grows (h : SoundTable allocates reg.families) (hi : Intake allocates reg pid step) :
    Grows allocates reg step.registry := by
  cases hi with
  | taken root _ turns =>
    exact ⟨turns.sound h, fun root x hm => (turns.hasMember_enroll h).2 (.inr hm)⟩
  | refused cause _ same _ =>
    rw [same]
    exact .refl h

theorem placed (h : SoundTable allocates reg.families) (hi : Intake allocates reg pid step)
    (ht : Taken step.answer) : ∃ root, HasMember step.registry.families root pid := by
  cases hi with
  | taken root _ turns => exact ⟨root, (turns.hasMember_enroll h).2 (.inl ⟨rfl, rfl⟩)⟩
  | refused cause answer same known =>
    rw [same]
    rw [answer] at ht
    rcases ht with ht | ht
    · cases ht
    · cases ht
      exact known rfl

end Registry.Intake

namespace ProcessEvent

open Script

/-! ## What is done about an answer -/

/-- What is done about an answer, and who is terminated. -/
inductive Reacts (host : Host) (settings : WatchSettings) (reg : Registry) (pid : Pid)
    (blocksDead : Bool) : Except Refusal Unit → Reaction → List Pid → Prop
  | attached {answer : Except Refusal Unit} (taken : Taken answer) :
    Reacts host settings reg pid blocksDead answer (.attached (reg.rootOf pid)) []
  | ignored {cause : Refusal} (why : cause = .invalidItem ∨ cause = .noParent) :
    Reacts host settings reg pid blocksDead (.error cause) .ignored []
  | rejected {cause : Refusal}
    (spared : deserves settings blocksDead cause = true → host.terminate pid ≠ .ok ()) :
    Reacts host settings reg pid blocksDead (.error cause) (.rejected cause) []
  | terminated {cause : Refusal} (deserved : deserves settings blocksDead cause = true)
    (gone : host.terminate pid = .ok ()) :
    Reacts host settings reg pid blocksDead (.error cause) (.terminated pid cause) [pid]

theorem refused_yields_rejected (hno : deserves settings blocksDead cause = false) :
    Yields host (refused settings pid cause blocksDead) reg (.rejected cause) reg [] := by
  unfold refused
  rw [hno]
  exact .bind .say .pure

theorem refused_yields_terminated (hyes : deserves settings blocksDead cause = true)
    (hkill : host.terminate pid = .ok ()) :
    Yields host (refused settings pid cause blocksDead) reg (.terminated pid cause) reg [pid] := by
  unfold refused
  rw [hyes]
  exact .bind (.terminate hkill) (.bind .say .pure)

theorem refused_yields : ∃ reaction killed,
    Reacts host settings reg pid blocksDead (.error cause) reaction killed ∧
      Yields host (refused settings pid cause blocksDead) reg reaction reg killed := by
  cases hd : deserves settings blocksDead cause with
  | false => exact ⟨_, _, .rejected (by simp [hd]), refused_yields_rejected hd⟩
  | true =>
    cases hk : host.terminate pid with
    | ok done => exact ⟨_, _, .terminated hd hk, refused_yields_terminated hd hk⟩
    | error failure =>
      refine ⟨_, _, .rejected (by simp [hk]), ?_⟩
      unfold refused
      rw [hd]
      exact .bind (.terminate_error hk) (.bind .say .pure)

theorem react_yields (answer : Except Refusal Unit) : ∃ reaction killed,
    Reacts host settings reg pid blocksDead answer reaction killed ∧
      Yields host (react settings pid answer blocksDead) reg reaction reg killed := by
  unfold react
  split
  · exact ⟨_, _, .attached (.inl rfl), .bind .ask .pure⟩
  · exact ⟨_, _, .attached (.inr rfl), .bind .ask .pure⟩
  · exact ⟨_, _, .ignored (.inr rfl), .pure⟩
  · exact ⟨_, _, .ignored (.inl rfl), .pure⟩
  · exact refused_yields

theorem Reacts.taken {root : Pid} {killed : List Pid}
    (h : Reacts host settings reg pid blocksDead answer (.attached root) killed) :
    Taken answer := by
  cases h with
  | attached taken => exact taken

/-! ## The attempt that has the last word -/

section
variable (hfirst : (reg.enroll host.allocates pid parent).answer = .error cause)
  (hsame : (reg.enroll host.allocates pid parent).registry = reg) (hcause : cause ≠ .alreadyExists)

include hfirst hsame in
theorem ask_yields_refused :
    Yields host (Script.ask (.enroll pid parent)) reg (.error cause) reg [] :=
  .ask_eq hfirst hsame

include hfirst hsame hcause in
theorem enrollChild_yields_second (hv : creator.isValid = true) (hne : creator ≠ parent) :
    Yields host (enrollChild pid parent creator) reg (reg.enroll host.allocates pid creator).answer
      (reg.enroll host.allocates pid creator).registry [] := by
  unfold enrollChild
  refine .bind (ask_yields_refused hfirst hsame) ?_
  split
  · rename_i he
    cases he
  · rename_i he
    cases he
    exact absurd rfl hcause
  · rw [if_pos (by simp [hv, hne])]
    exact .ask

include hfirst hsame hcause in
theorem enrollChild_yields_first (hno : ¬ (creator.isValid = true ∧ creator ≠ parent)) :
    Yields host (enrollChild pid parent creator) reg (.error cause) reg [] := by
  unfold enrollChild
  refine .bind (ask_yields_refused hfirst hsame) ?_
  split
  · rename_i he
    cases he
  · rename_i he
    cases he
    exact absurd rfl hcause
  · rename_i he
    cases he
    rw [if_neg (by simpa using hno)]
    exact .pure

end

/-- The creator's family is asked only when the parent's has left everything as it was, so that one
attempt has the last word. -/
theorem enrollChild_yields (h : SoundTable allocates reg.families) (host : Host)
    (pid parent creator : Pid) :
    ∃ step, Registry.Attempt allocates reg pid step ∧
      Yields host (enrollChild pid parent creator) reg step.answer step.registry [] := by
  have hfirst := Registry.enroll_attempt h host.allocates pid parent
  -- what the parent's family answers without a second attempt
  have honce {answer : Except Refusal Unit}
      (ha : (reg.enroll host.allocates pid parent).answer = answer) (ht : Taken answer) :
      Yields host (enrollChild pid parent creator) reg answer
        (reg.enroll host.allocates pid parent).registry [] := by
    unfold enrollChild
    rcases ht with rfl | rfl
    · exact .bind (.ask_eq (c := .enroll pid parent) ha rfl) .pure
    · exact .bind (.ask_eq (c := .enroll pid parent) ha rfl) .pure
  by_cases ht : Taken (reg.enroll host.allocates pid parent).answer
  · exact ⟨_, hfirst, honce rfl ht⟩
  cases ha : (reg.enroll host.allocates pid parent).answer with
  | ok done => exact absurd (.inl ha) ht
  | error cause =>
    have hsame := hfirst.intake.same_of_error ha
    have hnew : cause ≠ .alreadyExists := by
      rintro rfl
      exact ht (.inr ha)
    by_cases hagain : creator.isValid = true ∧ creator ≠ parent
    · exact ⟨_, Registry.enroll_attempt h host.allocates pid creator,
        enrollChild_yields_second ha hsame hnew hagain.1 hagain.2⟩
    · refine ⟨_, hfirst, ?_⟩
      rw [ha, hsame]
      exact enrollChild_yields_first ha hsame hnew hagain

theorem imageLoaded_yields (hv : file.isValid = true) :
    let step := reg.adopt host.allocates pid file
    ∃ reaction killed,
      Reacts host settings step.registry pid settings.blockRespawn step.answer reaction killed ∧
        Yields host ((ProcessEvent.imageLoaded pid file).handle settings) reg reaction step.registry
          killed := by
  intro step
  obtain ⟨reaction, killed, hreacts, hy⟩ : ∃ reaction killed,
      Reacts host settings step.registry pid settings.blockRespawn step.answer reaction killed ∧
        Yields host (react settings pid step.answer settings.blockRespawn) step.registry reaction
          step.registry killed := react_yields step.answer
  refine ⟨reaction, killed, hreacts, ?_⟩
  simp only [handle, hv, Bool.not_true, Bool.false_eq_true, if_false]
  refine .bind .ask ?_
  -- the look at the owner of the file leaves the registry as it is
  split
  · exact .bind .ask (.bind .say hy)
  · exact hy

/-- An event that is no exit is ignored, or an attempt to let its process in has the last word. -/
inductive Concludes (allocates : Allocator) (host : Host) (settings : WatchSettings)
    (reg : Registry) (pid : Pid) : Reaction → Registry → List Pid → Prop
  | ignored : Concludes allocates host settings reg pid .ignored reg []
  | reacted {step : Step (Except Refusal Unit)} {reaction : Reaction} {killed : List Pid}
    (blocksDead : Bool) (attempt : Registry.Attempt allocates reg pid step)
    (reacts : Reacts host settings step.registry pid blocksDead step.answer reaction killed) :
    Concludes allocates host settings reg pid reaction step.registry killed

theorem react_concludes (host : Host) (settings : WatchSettings) (blocksDead : Bool)
    {step : Step (Except Refusal Unit)} (ha : Registry.Attempt allocates reg pid step) :
    ∃ reaction killed, Concludes allocates host settings reg pid reaction step.registry killed ∧
      Yields host (react settings pid step.answer blocksDead) step.registry reaction step.registry
        killed := by
  obtain ⟨reaction, killed, hreacts, hy⟩ := react_yields step.answer
  exact ⟨reaction, killed, .reacted blocksDead ha hreacts, hy⟩

theorem handle_concludes (host : Host) (settings : WatchSettings) {event : ProcessEvent}
    (h : SoundTable allocates reg.families) (he : ∀ pid, event ≠ .exited pid) :
    ∃ reaction after killed, Concludes allocates host settings reg event.pid reaction after killed ∧
      Yields host (event.handle settings) reg reaction after killed := by
  cases event with
  | created pid parent creator =>
    obtain ⟨step, ha, hasked⟩ := enrollChild_yields h host pid parent creator
    obtain ⟨reaction, killed, hc, hy⟩ := react_concludes host settings false ha
    exact ⟨reaction, _, killed, hc, .bind hasked hy⟩
  | threadCreated creator target =>
    simp only [handle]
    split
    · exact ⟨_, _, _, .ignored, .pure⟩
    cases ht : reg.tracks creator with
    | true =>
      obtain ⟨reaction, killed, hc, hy⟩ :=
        react_concludes host settings false
          (Registry.enroll_attempt h host.allocates target creator)
      refine ⟨reaction, _, killed, hc, .bind (.ask_eq (c := .tracks creator) ht rfl) ?_⟩
      exact .bind .say (.bind .ask hy)
    | false => exact ⟨_, _, _, .ignored, .bind (.ask_eq (c := .tracks creator) ht rfl) .pure⟩
  | imageLoaded pid file =>
    cases hv : file.isValid with
    | true =>
      obtain ⟨reaction, killed, hreacts, hy⟩ := imageLoaded_yields hv
      exact ⟨reaction, _, killed, .reacted _ (Registry.adopt_attempt h _ pid file) hreacts, hy⟩
    | false =>
      simp only [handle, hv, Bool.not_false, if_true]
      exact ⟨_, _, _, .ignored, .pure⟩
  | exited pid => exact absurd rfl (he pid)

structure Reports (allocates : Allocator) (before : Registry) (pid : Pid) (reaction : Reaction)
    (after : Registry) : Prop where
  grows : Grows allocates before after
  placed : ∀ root, reaction = .attached root → ∃ owner, HasMember after.families owner pid

theorem handle_ends (settings : WatchSettings) {event : ProcessEvent}
    (h : SoundTable allocates reg.families) (he : ∀ pid, event ≠ .exited pid) :
    Ends host (event.handle settings) reg (Reports allocates reg event.pid) := by
  obtain ⟨reaction, after, killed, hc, hy⟩ := handle_concludes host settings h he
  refine ⟨reaction, hy.progress, ?_⟩
  rw [hy.registry]
  cases hc with
  | ignored => exact ⟨.refl h, nofun⟩
  | reacted blocksDead attempt reacts =>
    refine ⟨attempt.intake.grows h, fun root hr => ?_⟩
    exact attempt.intake.placed h (hr ▸ reacts).taken

/-! ## Exits -/

theorem exited_ends
    (h : reg.isBusyRoot pid = false ∨ settings.exitLimit.any host.elapses = true) :
    Ends host ((ProcessEvent.exited pid).handle settings) reg fun reaction after =>
      after = (reg.dismiss pid).registry ∧ ∀ root, reaction ≠ .attached root := by
  simp only [handle]
  by_cases hb : reg.isBusyRoot pid = true
  · have hl : settings.exitLimit.any host.elapses = true := by simpa [hb] using h
    refine .bind (.wait_elapsed hb hl ?_)
    rw [if_pos rfl]
    exact .bind (.say (.bind (.bind (.ask (.pure (.pure ⟨rfl, by simp⟩))))))
  · rw [Bool.not_eq_true] at hb
    refine .bind (.wait_idle hb ?_)
    rw [if_neg (by simp)]
    exact .pure ⟨rfl, by simp⟩

theorem exited_waits (hb : reg.isBusyRoot pid = true)
    (hl : settings.exitLimit.any host.elapses = false) :
    (∃ next, (((ProcessEvent.exited pid).handle settings).run host reg).progress =
      .waiting pid next) ∧
      (((ProcessEvent.exited pid).handle settings).run host reg).registry = reg := by
  simp [handle, wait, Bind.bind, Script.bind, run, Registry.leave, hb, hl]

end ProcessEvent

end Containment
