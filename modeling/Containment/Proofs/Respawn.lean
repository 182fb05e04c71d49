import Containment.Proofs.Decline
import Containment.Proofs.Interleaving

/-!
# Files that outlive the processes of their family

A family that protects its files stays when its last process has left. While nobody gives up or
claims one of these files, and the root does not come back, whatever others do leaves the family
there with that file (`run_vacant`). So whoever executes it is terminated (`respawn_blocked`).
-/

namespace Containment

variable {allocates : Allocator} {limits : Limits} {host : Host} {settings : WatchSettings}
variable {reg : Registry} {root pid : Pid} {file : FileId} {call : Call}

/-! ## What handling an event calls -/

def Call.Watches : Call → Prop
  | .enroll .. | .adopt .. | .dismiss _ | .leave _ | .tracks _ | .rootOf _ | .rootOfFile _ => True
  | _ => False

namespace ProcessEvent

open Script

theorem refused_only {cause : Refusal} {blocksDead : Bool} :
    (refused settings pid cause blocksDead).Only Call.Watches := by
  unfold refused
  split
  · refine .bind .terminate fun result => ?_
    split
    · exact .bind .say fun _ => .pure
    · exact .bind .say fun _ => .pure
  · exact .bind .say fun _ => .pure

theorem react_only {answer : Except Refusal Unit} {blocksDead : Bool} :
    (react settings pid answer blocksDead).Only Call.Watches := by
  unfold react
  split
  · exact .bind (.ask trivial) fun _ => .pure
  · exact .bind (.ask trivial) fun _ => .pure
  · exact .pure
  · exact .pure
  · exact refused_only

theorem enrollChild_only {parent creator : Pid} :
    (enrollChild pid parent creator).Only Call.Watches := by
  unfold enrollChild
  refine .bind (.ask trivial) fun answer => ?_
  split
  · exact .pure
  · exact .pure
  · split
    · exact .ask trivial
    · exact .pure

theorem handle_only (settings : WatchSettings) (event : ProcessEvent) :
    (event.handle settings).Only Call.Watches := by
  cases event with
  | created pid parent creator => exact .bind enrollChild_only fun _ => react_only
  | threadCreated creator target =>
    simp only [handle]
    split
    · exact .pure
    refine .bind (.ask trivial) fun tracked => ?_
    split
    · exact .bind .say fun _ => .bind (.ask trivial) fun _ => react_only
    · exact .pure
  | imageLoaded pid file =>
    simp only [handle]
    split
    · exact .pure
    refine .bind (.ask trivial) fun answer => ?_
    split
    · exact .bind (.ask trivial) fun _ => .bind .say fun _ => react_only
    · exact react_only
  | exited pid =>
    simp only [handle]
    refine .bind (.wait trivial) fun departure => ?_
    split
    · exact .bind .say fun _ => .bind (.bind (.ask trivial) fun _ => .pure) fun _ => .pure
    · exact .pure

end ProcessEvent

/-! ## Calls that spare a file -/

/-- The call neither gives up `file` nor claims it, and does not empty the registry. -/
def Call.Spares (file : FileId) (call : Call) : Prop :=
  call ≠ .reset ∧ call ≠ .disown file ∧ ∀ owner, call ≠ .claim file owner

theorem Call.Watches.spares (h : call.Watches) : call.Spares file := by
  refine ⟨?_, ?_, fun owner => ?_⟩
  all_goals
    rintro rfl
    exact h

/-- The family rooted at `root` owns `file`, and no process is in it. -/
structure Vacant (families : List Family) (root : Pid) (file : FileId) : Prop where
  owns : HasFile families root file
  empty : ¬ Staffed families root

namespace Registry

theorem exec_vacant (h : SoundTable allocates reg.families) (hp : Present reg.families)
    (hcall : call.Spares file) (hv : Vacant reg.families root file)
    (hout : ¬ HasMember (reg.exec allocates call).registry.families root root) :
    Vacant (reg.exec allocates call).registry.families root file := by
  obtain ⟨hreset, hdisown, hclaim⟩ := hcall
  have howns : HasFile (reg.exec allocates call).registry.families root file :=
    hasFile_exec h hp ⟨hreset, hdisown⟩ (fun hs => absurd hs hv.empty) (.inr hclaim) hv.owns
  refine ⟨howns, ?_⟩
  rintro ⟨pid, hpid⟩
  have hgone : ¬ HasMember reg.families root root := fun hm => hv.empty ⟨root, hm⟩
  rcases (exec_shrinks h hp hgone call).members pid hpid with heq | hold
  · subst heq
    exact hout hpid
  · exact hv.empty ⟨pid, hold⟩

end Registry

/-! ## Runs -/

/-- Of scripts only those are started that handle process events. -/
def Turn.Spares (file : FileId) : Turn Reaction → Prop
  | .call c => c.Spares file
  | .start script => ∃ settings event, script = ProcessEvent.handle settings event
  | .resume .. => True

theorem Turn.Spares.only {t : Turn Reaction} (h : t.Spares file) : t.Only (Call.Spares file) := by
  cases t with
  | call c => exact h
  | start script =>
    obtain ⟨settings, event, rfl⟩ := h
    exact (ProcessEvent.handle_only settings event).mono fun _ => Call.Watches.spares
  | resume index expired => trivial

theorem run_vacant {turns : List (Turn Reaction)}
    (h : Registry.Reachable host.allocates limits reg) (hv : Vacant reg.families root file)
    (hturns : ∀ t ∈ turns, t.Spares file)
    (hout : ∀ first, first <+: turns →
      ¬ HasMember (Concurrent.run host { registry := reg } first).registry.families root root) :
    Vacant (Concurrent.run host { registry := reg } turns).registry.families root file := by
  have hstep {now : Registry} {call : Call} (hcall : call.Spares file)
      (hkept : Registry.Reachable host.allocates limits now ∧ Vacant now.families root file)
      (hlater : ¬ HasMember (now.exec host.allocates call).registry.families root root) :
      Registry.Reachable host.allocates limits (now.exec host.allocates call).registry ∧
        Vacant (now.exec host.allocates call).registry.families root file := by
    obtain ⟨hnow, hvacant⟩ := hkept
    exact ⟨hnow.call call, Registry.exec_vacant hnow.sound hnow.present hcall hvacant hlater⟩
  have hrun := Concurrent.run_keeps
    (fun now => Registry.Reachable host.allocates limits now ∧ Vacant now.families root file)
    (fun now => ¬ HasMember now.families root root) hstep
    (List.forall_mem_nil _) (fun t ht => (hturns t ht).only) hout ⟨h, hv⟩
  exact hrun.2

/-! ## Processes that execute the file -/

namespace Registry

theorem adopt_vacant (h : SoundTable allocates reg.families) (hv : Vacant reg.families root file)
    (hvalid : pid.isValid = true) (hne : pid ≠ root) (huntracked : reg.tracks pid = false)
    (allocates' : Allocator) :
    (reg.adopt allocates' pid file).answer = .error .treeDead ∧
      (reg.adopt allocates' pid file).registry = reg := by
  have hgone : ¬ HasMember reg.families root root := fun hm => hv.empty ⟨root, hm⟩
  obtain ⟨slot, hroot, hdead, hadopt⟩ := adopt_rootless h hvalid hv.owns hgone
  have hnowhere : reg.slotOfMember? pid = none := by
    simpa [tracks, hvalid] using huntracked
  have hne' : pid ≠ slot.family.root := hroot ▸ hne
  rw [hadopt]
  constructor
  · rw [(enrollAt_dead hne' hdead).2, hnowhere]
    rfl
  · exact (enrollAt_dead hne' hdead).1

end Registry

namespace ProcessEvent

open Script

theorem imageLoaded_terminated (hfile : file.isValid = true)
    (hblocks : settings.blockRespawn = true) (hkill : host.terminate pid = .ok ())
    (hadopt : (reg.adopt host.allocates pid file).answer = .error .treeDead ∧
      (reg.adopt host.allocates pid file).registry = reg) :
    Yields host ((ProcessEvent.imageLoaded pid file).handle settings) reg
      (.terminated pid .treeDead) reg [pid] := by
  obtain ⟨reaction, killed, hreacts, hy⟩ := imageLoaded_yields hfile
  rw [hadopt.1, hadopt.2] at hreacts
  rw [hadopt.2] at hy
  cases hreacts with
  | attached taken => rcases taken with ht | ht <;> cases ht
  | ignored why => rcases why with hw | hw <;> cases hw
  | rejected spared => exact absurd hkill (spared hblocks)
  | terminated => exact hy

end ProcessEvent

/-! ## Respawns -/

theorem Vacant.family (h : SoundTable allocates reg.families) (hp : Present reg.families)
    (hv : Vacant reg.families root file) :
    (∃ g ∈ reg.families, g.root = root ∧ g.policy = .protectDroppedFiles ∧ g.members.items = [] ∧
      file ∈ g.files.items) ∧ reg.rootOfFile file = root := by
  refine ⟨?_, h.rootOfFile hv.owns⟩
  obtain ⟨g, hg, hroot, hfile⟩ := hv.owns
  have hempty : ∀ pid, pid ∉ g.members.items := fun pid hpid => hv.empty ⟨pid, g, hg, hroot, hpid⟩
  have hprotects : g.policy = .protectDroppedFiles :=
    Registry.protects_of_isEmpty (hp g hg) (BoundedSet.isEmpty_iff.2 hempty)
  exact ⟨g, hg, hroot, hprotects, List.eq_nil_iff_forall_not_mem.2 hempty, hfile⟩

/-- A family without processes owns `file`. Calls are made and process events are handled, all of
them interleaved at will. Nobody gives up `file` or claims it, and the root does not come back. Then
the family stays as a protector of `file`, and whoever executes it outside all families is
terminated, if that can be done. -/
theorem respawn_blocked {f : Family} {turns : List (Turn Reaction)}
    (h : Registry.Reachable host.allocates limits reg) (hf : f ∈ reg.families)
    (hempty : f.members.items = []) (hfile : file ∈ f.files.items)
    (hturns : ∀ t ∈ turns, t.Spares file)
    (haway : ∀ first, first <+: turns →
      f.root ∉ (Concurrent.run host { registry := reg } first).registry.members f.root) :
    ∀ first, first <+: turns →
      let now := (Concurrent.run host { registry := reg } first).registry
      (∃ g ∈ now.families, g.root = f.root ∧ g.policy = .protectDroppedFiles ∧
        g.members.items = [] ∧ file ∈ g.files.items) ∧
      now.rootOfFile file = f.root ∧
      ∀ (machine : Host) (settings : WatchSettings) (pid : Pid),
        settings.blockRespawn = true → machine.terminate pid = .ok () → pid.isValid = true →
        pid ≠ f.root → now.tracks pid = false →
        Script.Yields machine ((ProcessEvent.imageLoaded pid file).handle settings) now
          (.terminated pid .treeDead) now [pid] := by
  intro first hfirst now
  have hnow : Registry.Reachable host.allocates limits now := Concurrent.reachable_run first h
  have hstart : Vacant reg.families f.root file := by
    refine ⟨⟨f, hf, rfl, hfile⟩, fun ⟨pid, hpid⟩ => ?_⟩
    rw [h.sound.hasMember_root hf, hempty] at hpid
    exact List.not_mem_nil hpid
  have hvacant : Vacant now.families f.root file := by
    refine run_vacant h hstart (fun t ht => hturns t (hfirst.subset ht)) fun start hshort => ?_
    rw [← (Concurrent.reachable_run start h).sound.mem_members]
    exact haway start (hshort.trans hfirst)
  obtain ⟨hfamily, howner⟩ := hvacant.family hnow.sound hnow.present
  refine ⟨hfamily, howner, ?_⟩
  intro machine settings pid hblocks hkill hvalid hne huntracked
  have hfile : file.isValid = true := by
    obtain ⟨g, hg, -, hx⟩ := hvacant.owns
    exact (hnow.sound.sound g hg).valid_of_file hx
  have hadopt := Registry.adopt_vacant hnow.sound hvacant hvalid hne huntracked machine.allocates
  exact ProcessEvent.imageLoaded_terminated hfile hblocks hkill hadopt

def deserted : Registry :=
  (Registry.empty {}).execAll (fun _ => true)
    [.found ⟨10⟩ .invalid .noRestriction, .found ⟨30⟩ .invalid .protectDroppedFiles,
      .claim ⟨7⟩ ⟨30⟩, .claim ⟨8⟩ ⟨30⟩, .found ⟨20⟩ .invalid .noRestriction, .dismiss ⟨30⟩]

/-- While 31, a late child of 30, is looked after, the family of 10 goes and that of 20 claims
file 8. In the end the copy of file 7 that 40 executes is terminated. -/
theorem respawn_blocked_meanwhile :
    let host : Host := ⟨fun _ => true, fun _ => true, fun _ => .ok (), fun _ => false⟩
    let turns : List (Turn Reaction) :=
      [.start ((ProcessEvent.created ⟨31⟩ ⟨30⟩ ⟨20⟩).handle {}), .resume 0 false,
        .call (.dismiss ⟨10⟩), .call (.claim ⟨8⟩ ⟨20⟩),
        .start ((ProcessEvent.exited ⟨20⟩).handle {}), .resume 0 false, .resume 1 false,
        .resume 0 false]
    let now := (Concurrent.run host { registry := deserted } turns).registry
    Registry.Reachable host.allocates {} deserted ∧ now.families.map Family.root = [⟨20⟩, ⟨30⟩] ∧
      now.members ⟨20⟩ = [⟨20⟩, ⟨31⟩] ∧ now.files ⟨30⟩ = [⟨7⟩] ∧ now.rootOfFile ⟨7⟩ = ⟨30⟩ ∧
      Script.Yields host ((ProcessEvent.imageLoaded ⟨40⟩ ⟨7⟩).handle {}) now
        (.terminated ⟨40⟩ .treeDead) now [⟨40⟩] := by
  intro host turns now
  have h : Registry.Reachable host.allocates {} deserted := Registry.Reachable.execAll _ .empty
  have hfamily : ∃ f ∈ deserted.families,
      f.root = ⟨30⟩ ∧ f.members.items = [] ∧ ⟨7⟩ ∈ f.files.items := by decide
  obtain ⟨f, hf, hroot, hempty, hfile⟩ := hfamily
  have hevent (event : ProcessEvent) : (Turn.start (event.handle {})).Spares ⟨7⟩ := ⟨{}, event, rfl⟩
  have hdismiss : (Call.dismiss ⟨10⟩).Spares ⟨7⟩ := ⟨nofun, nofun, nofun⟩
  have hclaim : (Call.claim ⟨8⟩ ⟨20⟩).Spares ⟨7⟩ := ⟨nofun, nofun, by simp⟩
  have hturns : ∀ t ∈ turns, t.Spares ⟨7⟩ := by
    simp only [turns, List.forall_mem_cons]
    exact ⟨hevent _, trivial, hdismiss, hclaim, hevent _, trivial, trivial, trivial, by simp⟩
  have haway : ∀ first ∈ turns.inits,
      ⟨30⟩ ∉ (Concurrent.run host { registry := deserted } first).registry.members ⟨30⟩ := by
    decide
  have hend := respawn_blocked h hf hempty hfile hturns (fun first hfirst => by
    rw [hroot]
    exact haway first ((List.mem_inits first turns).2 hfirst)) turns (List.prefix_refl turns)
  rw [hroot] at hend
  exact ⟨h, by decide, by decide, by decide, hend.2.1,
    hend.2.2 host {} ⟨40⟩ rfl rfl (by decide) (by decide) (by decide)⟩

end Containment
