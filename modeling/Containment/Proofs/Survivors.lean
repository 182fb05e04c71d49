import Containment.Proofs.Contention
import Containment.Proofs.Terminations

/-!
# Terminations while processes are born

A termination asks once for the members of a family and then takes them out one by one. Meanwhile
the root is still there, and the family goes on taking in what is born to it. Nobody who comes after
the list was made is terminated. So these processes are what is left of the family in the end
(`none_left_iff`), and the answer does not say that nobody is (`not_none_left`).
-/

namespace Containment

variable {α β : Type} {host : Host} {limits : Limits} {reg : Registry} {root pid child owner : Pid}

/-! ## Births between the steps -/

inductive Moment where
  | birth (child parent : Pid)
  | step
  deriving DecidableEq

namespace Moment

def turn : Moment → Turn α
  | .birth child parent => .call (.enroll child parent)
  | .step => .resume 0 false

/-- The moments up to the next step of the script, with that step. -/
def untilStep : List Moment → List Moment
  | [] => []
  | .step :: _ => [.step]
  | .birth child parent :: rest => .birth child parent :: untilStep rest

def afterStep : List Moment → List Moment
  | [] => []
  | .step :: rest => rest
  | .birth _ _ :: rest => afterStep rest

theorem untilStep_append_afterStep (moments : List Moment) :
    untilStep moments ++ afterStep moments = moments := by
  induction moments with
  | nil => rfl
  | cons moment rest ih =>
    cases moment with
    | step => rfl
    | birth child parent => simp [untilStep, afterStep, ih]

end Moment

namespace Concurrent

open Moment

def pass (host : Host) (c : Concurrent α) (moments : List Moment) : Concurrent α :=
  c.run host (moments.map Moment.turn)

/-- Who comes into the family rooted at `root` at this moment. -/
def bornAt (host : Host) (root : Pid) (c : Concurrent α) : Moment → List Pid
  | .birth child parent =>
    let attached := c.registry.enroll host.allocates child parent
    if attached.answer = .ok () ∧ attached.registry.rootOf child = root then [child] else []
  | .step => []

def born (host : Host) (root : Pid) (c : Concurrent α) : List Moment → List Pid
  | [] => []
  | moment :: rest => c.bornAt host root moment ++ (c.turn host moment.turn).born host root rest

variable {c : Concurrent α} {moments rest : List Moment} {script : Script α} {answer : α}
variable {query : Call} {next : query.Answer → Script α}

theorem pass_split (moments : List Moment) :
    c.pass host moments = (c.pass host (untilStep moments)).pass host (afterStep moments) := by
  simp only [pass, run]
  rw [← List.foldl_append, ← List.map_append, untilStep_append_afterStep]

@[simp]
theorem pass_nil : c.pass host [] = c := rfl

theorem pass_cons {moment : Moment} :
    c.pass host (moment :: rest) = (c.turn host moment.turn).pass host rest := rfl

theorem reachable_pass (h : Registry.Reachable host.allocates limits c.registry)
    (moments : List Moment) :
    Registry.Reachable host.allocates limits (c.pass host moments).registry := reachable_run _ h

theorem turn_step (hc : c.scripts = [script]) :
    c.turn host Moment.step.turn =
      ⟨(script.step host false c.registry).1, [(script.step host false c.registry).2]⟩ := by
  simp only [Moment.turn]
  have hscript : c.scripts[0]? = some script := by simp [hc]
  rw [turn_resume hscript]
  simp [hc]

theorem pass_done (hc : c.scripts = [.done answer]) (moments : List Moment) :
    (c.pass host moments).scripts = [.done answer] := by
  induction moments generalizing c with
  | nil => exact hc
  | cons moment rest ih =>
    rw [pass_cons]
    apply ih
    cases moment with
    | birth child parent => exact hc
    | step =>
      rw [turn_step hc]
      rfl

theorem answer?_of_call (hc : c.scripts = [.call query next]) : c.answer? 0 = none := by
  simp [answer?, hc, Script.answer?]

theorem pass_untilStep (host : Host)
    (hquery : ∀ reg : Registry, (reg.exec host.allocates query).registry = reg)
    (hc : c.scripts = [.call query next]) (moments : List Moment) :
    let now := c.pass host (untilStep moments)
    now.scripts = [next (now.registry.exec host.allocates query).answer] ∨
      now.scripts = [.call query next] ∧ afterStep moments = [] := by
  induction moments generalizing c with
  | nil => exact .inr ⟨hc, rfl⟩
  | cons moment rest ih =>
    cases moment with
    | birth child parent => exact ih (c := c.turn host (.call (.enroll child parent))) hc
    | step =>
      left
      show (c.turn host Moment.step.turn).scripts = _
      rw [untilStep, pass_cons, turn_step hc]
      simp only [Script.step, pass_nil, hquery]

end Concurrent

/-! ## Taking out one by one -/

namespace Script

/-- A script that makes no calls but to take out these processes in their order. -/
inductive Culls (post : List Pid → α → Prop) : List Pid → Script α → Prop
  | done {left : List Pid} {answer : α} (h : post left answer) : Culls post left (.done answer)
  | note {left : List Pid} {notice : Notice} {next : Script α} (h : Culls post left next) :
    Culls post left (.note notice next)
  | kill {left : List Pid} {p : Pid} {next : Except TerminationFailure Unit → Script α}
    (h : ∀ result, Culls post left (next result)) : Culls post left (.kill p next)
  | dismiss {left : List Pid} {p : Pid} {next : Bool → Script α}
    (h : ∀ removed, Culls post left (next removed)) :
    Culls post (p :: left) (.call (.dismiss p) next)

namespace Culls

variable {post : List Pid → α → Prop} {post' : List Pid → β → Prop} {left : List Pid}
variable {script : Script α} {k : α → Script β}

theorem bind (h : Culls post left script)
    (hk : ∀ left answer, post left answer → Culls post' left (k answer)) :
    Culls post' left (script >>= k) := by
  show Culls post' left (script.bind k)
  induction h with
  | done h => exact hk _ _ h
  | note _ ih => exact .note ih
  | kill _ ih => exact .kill ih
  | dismiss _ ih => exact .dismiss ih

theorem step (h : Culls post left script) (host : Host) (reg : Registry) :
    ∃ later, Culls post later (script.step host false reg).2 ∧
      ((script.step host false reg).1 = reg ∧ later = left ∨
        ∃ p, (script.step host false reg).1 = (reg.dismiss p).registry ∧ left = p :: later) := by
  cases h with
  | done h => exact ⟨_, .done h, .inl ⟨rfl, rfl⟩⟩
  | note h => exact ⟨_, h, .inl ⟨rfl, rfl⟩⟩
  | kill h => exact ⟨_, h _, .inl ⟨rfl, rfl⟩⟩
  | @dismiss later p next h => exact ⟨later, h _, .inr ⟨p, rfl, rfl⟩⟩

end Culls

end Script

open Script

theorem Request.terminateEach_culls (pids : List Pid) :
    Culls (fun left answer => answer = .ok () → left = []) pids (terminateEach pids) := by
  induction pids with
  | nil => exact .done fun _ => rfl
  | cons p rest ih =>
    refine .kill fun result => ?_
    cases result with
    | error failure => exact .done fun h => nomatch h
    | ok => exact .dismiss fun _ => ih

/-! ## A family that loses and gains -/

theorem Change.Turns.not_hasMember_enroll {allocates : Allocator} {before after : List Family}
    (ht : (Change.enroll child owner).Turns allocates limits before after)
    (h : SoundTable allocates before) : ¬ HasMember before root child := by
  cases ht with
  | enroll valid fresh taken old new =>
    obtain ⟨-, -, -, hnew, -⟩ := (SoundTable.cons_iff.1 (h.perm old)).1.enroll valid taken
    rw [HasMember.perm old, hasMember_cons]
    rintro (⟨-, hp⟩ | ⟨g, hg, -, hp⟩)
    · exact hnew hp
    · exact fresh g hg hp

namespace Concurrent

variable {c : Concurrent α} {parent x : Pid}

theorem bornAt_of_taken (h : SoundTable host.allocates c.registry.families)
    (answer : (c.registry.enroll host.allocates child parent).answer = .ok ())
    (turns : (Change.enroll child owner).Turns host.allocates c.registry.limits
      c.registry.families (c.registry.enroll host.allocates child parent).registry.families) :
    c.bornAt host root (.birth child parent) = if owner = root then [child] else [] := by
  have hroot := (turns.sound h).rootOf ((turns.hasMember_enroll h).2 (.inl ⟨rfl, rfl⟩))
  simp [bornAt, answer, hroot]

theorem hasMember_birth (h : SoundTable host.allocates c.registry.families) :
    HasMember (c.turn host (Moment.birth child parent).turn).registry.families root x ↔
      HasMember c.registry.families root x ∨ x ∈ c.bornAt host root (.birth child parent) := by
  show HasMember (c.registry.enroll host.allocates child parent).registry.families root x ↔ _
  cases Registry.enroll_intake h host.allocates child parent with
  | refused cause answer same => simp [bornAt, answer, same]
  | taken owner answer turns =>
    rw [bornAt_of_taken h answer turns, turns.hasMember_enroll h, or_comm]
    by_cases hroot : owner = root
    · simp [hroot]
    · simp [hroot, Ne.symm hroot]

theorem not_hasMember_of_born (h : SoundTable host.allocates c.registry.families)
    (hx : x ∈ c.bornAt host root (.birth child parent)) :
    ¬ HasMember c.registry.families root x := by
  cases Registry.enroll_intake h host.allocates child parent with
  | refused cause answer => simp [bornAt, answer] at hx
  | taken owner answer turns =>
    rw [bornAt_of_taken h answer turns] at hx
    split at hx
    · rw [List.mem_singleton.1 hx]
      exact turns.not_hasMember_enroll h
    · cases hx

end Concurrent

variable {post : List Pid → α → Prop} {left : List Pid} {c : Concurrent α}

/-- The script is about to take these processes out of the family rooted at `root`. -/
structure Culling (host : Host) (root : Pid) (post : List Pid → α → Prop) (left : List Pid)
    (c : Concurrent α) : Prop where
  script : ∃ script, c.scripts = [script] ∧ Culls post left script
  sound : SoundTable host.allocates c.registry.families
  nodup : left.Nodup
  there : ∀ p ∈ left, HasMember c.registry.families root p

namespace Culling

theorem birth (h : Culling host root post left c) (child parent : Pid) :
    Culling host root post left (c.turn host (Moment.birth child parent).turn) ∧
      ∀ x, (HasMember (c.turn host (Moment.birth child parent).turn).registry.families root x ∧
          x ∉ left) ↔
        (HasMember c.registry.families root x ∧ x ∉ left) ∨
          x ∈ c.bornAt host root (.birth child parent) := by
  have hsound := Registry.sound_exec h.sound (.enroll child parent)
  refine ⟨⟨h.script, hsound, h.nodup, fun p hp => ?_⟩, fun x => ?_⟩
  · exact (Concurrent.hasMember_birth h.sound).2 (.inl (h.there p hp))
  · have hout : x ∈ c.bornAt host root (.birth child parent) → x ∉ left :=
      fun hborn hleft => Concurrent.not_hasMember_of_born h.sound hborn (h.there x hleft)
    rw [Concurrent.hasMember_birth h.sound]
    tauto

theorem step (h : Culling host root post left c) :
    ∃ later, Culling host root post later (c.turn host Moment.step.turn) ∧
      ∀ x, (HasMember (c.turn host Moment.step.turn).registry.families root x ∧ x ∉ later) ↔
        HasMember c.registry.families root x ∧ x ∉ left := by
  obtain ⟨script, hscript, hculls⟩ := h.script
  obtain ⟨later, hlater, hstep⟩ := hculls.step host c.registry
  rw [Concurrent.turn_step hscript]
  generalize script.step host false c.registry = made at hlater hstep
  obtain ⟨after, rest⟩ := made
  rcases hstep with ⟨rfl, rfl⟩ | ⟨p, rfl, rfl⟩
  · exact ⟨_, ⟨⟨rest, rfl, hlater⟩, h.sound, h.nodup, h.there⟩, fun x => .rfl⟩
  · obtain ⟨hp, hnodup⟩ := List.nodup_cons.1 h.nodup
    have hmember (x : Pid) : HasMember (c.registry.dismiss p).registry.families root x ↔
        x ≠ p ∧ HasMember c.registry.families root x := Registry.hasMember_dismiss h.sound
    refine ⟨later, ⟨⟨rest, rfl, hlater⟩, Registry.sound_dismiss h.sound, hnodup, ?_⟩, fun x => ?_⟩
    · intro q hq
      refine (hmember q).2 ⟨?_, h.there q (List.mem_cons_of_mem _ hq)⟩
      intro heq
      exact hp (heq ▸ hq)
    · rw [hmember, List.mem_cons, not_or]
      tauto

/-- At the end of all moments the members are those that have been born since, and those that were
there and did not have to go. -/
theorem pass (h : Culling host root post left c) (moments : List Moment) :
    ∃ later, Culling host root post later (c.pass host moments) ∧
      ∀ x, (HasMember (c.pass host moments).registry.families root x ∧ x ∉ later) ↔
        (HasMember c.registry.families root x ∧ x ∉ left) ∨ x ∈ c.born host root moments := by
  induction moments generalizing c left with
  | nil => exact ⟨left, h, fun x => by simp [Concurrent.born]⟩
  | cons moment rest ih =>
    have hnow : ∃ mid, Culling host root post mid (c.turn host moment.turn) ∧
        ∀ x, (HasMember (c.turn host moment.turn).registry.families root x ∧ x ∉ mid) ↔
          (HasMember c.registry.families root x ∧ x ∉ left) ∨ x ∈ c.bornAt host root moment := by
      cases moment with
      | birth child parent => exact ⟨left, h.birth child parent⟩
      | step =>
        obtain ⟨mid, hmid, hmembers⟩ := h.step
        refine ⟨mid, hmid, fun x => ?_⟩
        rw [hmembers]
        simp [Concurrent.bornAt]
    obtain ⟨mid, hmid, hfirst⟩ := hnow
    obtain ⟨later, hlater, hrest⟩ := ih hmid
    refine ⟨later, hlater, fun x => ?_⟩
    rw [Concurrent.pass_cons, hrest, hfirst, Concurrent.born, List.mem_append, or_assoc]

end Culling

/-! ## Terminations -/

namespace Request

open Moment

def terminateListed (root : Pid) (members : List Pid) : Script (Except ControlError Response) := do
  let pids := rootLast root members
  match ← terminateEach pids with
  | .error e => return .error e
  | .ok () =>
    Script.say (.familyTerminated root pids.length)
    return .ok (.terminated pids)

def terminateRooted (root : Pid) : Script (Except ControlError Response) := do
  if !root.isValid then return .error (.refused .noParent)
  else terminateListed root (← Script.ask (.members root))

theorem dispatch_terminate (pid : Pid) :
    (terminate pid).dispatch = .call (.rootOf pid) terminateRooted := rfl

theorem terminateListed_culls (root : Pid) (members : List Pid) :
    Culls (fun left answer => ∀ pids, answer = .ok (.terminated pids) →
      left = [] ∧ pids = rootLast root members) (rootLast root members)
      (terminateListed root members) := by
  unfold terminateListed
  refine (terminateEach_culls _).bind fun left answer hleft => ?_
  cases answer with
  | error e => exact .done fun pids h => nomatch h
  | ok =>
    refine .note (.done fun pids h => ?_)
    cases h
    exact ⟨hleft rfl, rfl⟩

theorem perm_rootLast (root : Pid) (members : List Pid) : (rootLast root members).Perm members := by
  have hbeq : (fun p : Pid => p == root) = fun p => !(p != root) := by
    funext p
    simp [bne]
  rw [rootLast, hbeq]
  exact List.filter_append_perm _ _

def terminating (reg : Registry) (pid : Pid) : Concurrent (Except ControlError Response) :=
  { registry := reg, scripts := [(terminate pid).dispatch] }

theorem culling_listed {listed : Concurrent (Except ControlError Response)}
    (h : SoundTable host.allocates listed.registry.families)
    (hscripts : listed.scripts = [terminateListed root (listed.registry.members root)]) :
    Culling host root (fun left answer => ∀ pids, answer = .ok (.terminated pids) →
      left = [] ∧ pids = rootLast root (listed.registry.members root))
      (rootLast root (listed.registry.members root)) listed where
  script := ⟨_, hscripts, terminateListed_culls _ _⟩
  sound := h
  nodup := (perm_rootLast _ _).nodup_iff.2 (h.nodup_members root)
  there _ hp := h.mem_members.1 ((perm_rootLast _ _).mem_iff.1 hp)

theorem scripts_listed {moments : List Moment} {pids : List Pid}
    (hdone : ((terminating reg pid).pass host moments).answer? 0 = some (.ok (.terminated pids))) :
    let asked := (terminating reg pid).pass host (untilStep moments)
    let root := asked.registry.rootOf pid
    let listed := asked.pass host (untilStep (afterStep moments))
    listed.scripts = [terminateListed root (listed.registry.members root)] := by
  intro asked root listed
  have hfirst : (terminating reg pid).scripts = [.call (.rootOf pid) terminateRooted] := by
    rw [terminating, dispatch_terminate]
  rw [Concurrent.pass_split] at hdone
  rcases Concurrent.pass_untilStep host (fun _ => rfl) hfirst moments with
    hasked | ⟨hsame, hnone⟩
  · have hasked : asked.scripts = [terminateRooted root] := hasked
    unfold terminateRooted at hasked
    split at hasked
    · rw [Concurrent.answer?, Concurrent.pass_done hasked] at hdone
      cases hdone
    · rw [Concurrent.pass_split] at hdone
      rcases Concurrent.pass_untilStep host (fun _ => rfl) hasked (afterStep moments) with
        hlisted | ⟨hsame, hnone⟩
      · exact hlisted
      · rw [hnone, Concurrent.pass_nil, Concurrent.answer?_of_call hsame] at hdone
        cases hdone
  · rw [hnone, Concurrent.pass_nil, Concurrent.answer?_of_call hsame] at hdone
    cases hdone

/-- A termination is answered with the members of the family at the moment in which it asked for
them. None of these is left when it is answered, and those who are left were all born since then. -/
theorem none_left_iff (h : Registry.Reachable host.allocates limits reg) (pid : Pid)
    (moments : List Moment) (pids : List Pid) :
    let asked := (terminating reg pid).pass host (untilStep moments)
    let root := asked.registry.rootOf pid
    let listed := asked.pass host (untilStep (afterStep moments))
    let newborn := listed.born host root (afterStep (afterStep moments))
    let last := (terminating reg pid).pass host moments
    last.answer? 0 = some (.ok (.terminated pids)) →
      pids = rootLast root (listed.registry.members root) ∧
      (∀ p, p ∈ last.registry.members root ↔ p ∈ newborn) ∧
      ((∀ f ∈ last.registry.families, f.root = root → f.members.items = []) ↔ newborn = []) := by
  intro asked root listed newborn last hdone
  have hlisted : SoundTable host.allocates listed.registry.families :=
    (Concurrent.reachable_pass (Concurrent.reachable_pass h _) _).sound
  have hlast : last = listed.pass host (afterStep (afterStep moments)) := by
    show (terminating reg pid).pass host moments = _
    rw [Concurrent.pass_split, Concurrent.pass_split]
  obtain ⟨later, hculling, hmembers⟩ :=
    (culling_listed hlisted (scripts_listed hdone)).pass (afterStep (afterStep moments))
  rw [← hlast] at hculling hmembers
  obtain ⟨script, hscript, hculls⟩ := hculling.script
  have hover : later = [] ∧ pids = rootLast root (listed.registry.members root) := by
    rw [Concurrent.answer?, hscript] at hdone
    cases hculls with
    | done hpost => exact hpost pids (Option.some.inj hdone)
    | _ => cases hdone
  obtain ⟨rfl, hpids⟩ := hover
  have hsurvivors (p : Pid) : HasMember last.registry.families root p ↔ p ∈ newborn := by
    have hp := hmembers p
    rw [(perm_rootLast _ _).mem_iff, hlisted.mem_members] at hp
    simpa using hp
  refine ⟨hpids, fun p => ?_, ?_⟩
  · rw [hculling.sound.mem_members, hsurvivors]
  · rw [List.eq_nil_iff_forall_not_mem]
    constructor
    · intro hempty p hp
      obtain ⟨f, hf, hroot, hmem⟩ := (hsurvivors p).2 hp
      rw [hempty f hf hroot] at hmem
      cases hmem
    · intro hnone f hf hroot
      refine List.eq_nil_iff_forall_not_mem.2 fun p hp => ?_
      exact hnone p ((hsurvivors p).1 ⟨f, hf, hroot, hp⟩)

/-- 11 and 12 are on the list, as they are born before it is made, and 21 comes into another family
while they are taken out. -/
theorem none_left_iff_listed :
    let host := ({} : Machine).host
    let reg := (Registry.empty {}).execAll host.allocates
      [.found ⟨10⟩ .invalid .noRestriction, .found ⟨20⟩ .invalid .noRestriction]
    let moments := [.birth ⟨11⟩ ⟨10⟩, .step, .birth ⟨12⟩ ⟨11⟩, .step, .birth ⟨21⟩ ⟨20⟩] ++
      List.replicate 7 .step
    let root := ((terminating reg ⟨10⟩).pass host (untilStep moments)).registry.rootOf ⟨10⟩
    let last := (terminating reg ⟨10⟩).pass host moments
    Registry.Reachable host.allocates {} reg ∧ root = ⟨10⟩ ∧
      last.answer? 0 = some (.ok (.terminated [⟨11⟩, ⟨12⟩, ⟨10⟩])) ∧
      last.registry.tracks ⟨21⟩ = true ∧
      ∀ f ∈ last.registry.families, f.root = root → f.members.items = [] := by
  intro host reg moments root last
  have h : Registry.Reachable host.allocates {} reg := Registry.Reachable.execAll _ .empty
  have hdone : last.answer? 0 = some (.ok (.terminated [⟨11⟩, ⟨12⟩, ⟨10⟩])) := by decide
  have hleft := (none_left_iff h ⟨10⟩ moments _ hdone).2.2.2 (by decide)
  -- with their names the two sides would be evaluated
  subst root last
  exact ⟨h, by decide, hdone, by decide, hleft⟩

/-- 11 is born to 10 after the list has been made. -/
theorem not_none_left : ¬ ∀ (host : Host) (limits : Limits) (reg : Registry) (pid : Pid)
    (moments : List Moment) (pids : List Pid), Registry.Reachable host.allocates limits reg →
    let root := ((terminating reg pid).pass host (untilStep moments)).registry.rootOf pid
    let last := (terminating reg pid).pass host (moments ++ [.step])
    ((terminating reg pid).pass host moments).answer? 0 = none →
    last.answer? 0 = some (.ok (.terminated pids)) →
    ∀ f ∈ last.registry.families, f.root = root → f.members.items = [] := by
  intro hall
  let host := ({} : Machine).host
  let reg := (Registry.empty {}).exec host.allocates (.found ⟨10⟩ .invalid .noRestriction)
  have h : Registry.Reachable host.allocates {} reg.registry := Registry.Reachable.empty.call _
  have hleft := hall host {} reg.registry ⟨10⟩
    [.step, .step, .birth ⟨11⟩ ⟨10⟩, .step, .step] [⟨10⟩] h (by decide) (by decide)
  revert hleft
  decide

end Request

end Containment
