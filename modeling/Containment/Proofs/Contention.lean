import Containment.Proofs.Interleaving
import Containment.Proofs.Registration

/-!
# Registrations that take turns

Several callers register one process at a time. One of them founds the family, and it takes the
family back if the origin is not to be had. The others find the process to be a root already, and
are answered that it is registered. But whether the family stays is up to its founder alone
(`kept_by_founder`), so the answer promises nothing to them (`not_kept_by_answer`).
-/

namespace Containment

variable {α β : Type} {host : Host} {limits : Limits} {reg : Registry} {pid : Pid}

/-! ## Where a registration stands -/

/-- Where a registration stands with the family of its process. -/
inductive Standing where
  | outside
  | guest
  /-- It has founded the family. -/
  | holder
  /-- It has taken the family back. -/
  | former
  deriving DecidableEq

namespace Standing

def HasFounded : Standing → Prop
  | .outside | .guest => False
  | .holder | .former => True

/-- What a registration that is over may have been answered. -/
def Answers (pid : Pid) : Standing → Except ControlError Response → Prop
  | .outside, answer | .former, answer => ∃ error, answer = .error error
  | .guest, answer => answer = .ok (.registered pid) ∨ ∃ error, answer = .error error
  | .holder, answer => answer = .ok (.registered pid)

def ofFounding : Except Refusal Bool → Standing
  | .ok true => .holder
  | .ok false => .guest
  | .error _ => .outside

end Standing

namespace Script

/-- A script that changes its standing by its calls only, and that ends with `post`. -/
inductive Follows (pid : Pid) (post : Standing → α → Prop) : Standing → Script α → Prop
  | done {standing : Standing} {answer : α} (h : post standing answer) :
    Follows pid post standing (.done answer)
  | note {standing : Standing} {notice : Notice} {next : Script α}
    (h : Follows pid post standing next) : Follows pid post standing (.note notice next)
  | probe {standing : Standing} {p : Pid} {next : Bool → Script α}
    (h : ∀ running, Follows pid post standing (next running)) :
    Follows pid post standing (.probe p next)
  | found {origin : FileId} {policy : Policy} {next : Except Refusal Unit → Script α}
    (ok : Follows pid post .holder (next (.ok ())))
    (error : ∀ cause, Follows pid post .outside (next (.error cause))) :
    Follows pid post .outside (.call (.found pid origin policy) next)
  | rootOf {next : Pid → Script α} (valid : pid.isValid = true)
    (known : Follows pid post .guest (next pid))
    (unknown : ∀ root, root ≠ pid → Follows pid post .outside (next root)) :
    Follows pid post .outside (.call (.rootOf pid) next)
  | claim {standing : Standing} {file : FileId} {owner : Pid}
    {next : Except Refusal Unit → Script α}
    (h : ∀ answer, Follows pid post standing (next answer)) :
    Follows pid post standing (.call (.claim file owner) next)
  | dismiss {next : Bool → Script α} (h : ∀ removed, Follows pid post .former (next removed)) :
    Follows pid post .holder (.call (.dismiss pid) next)

theorem Follows.bind {post : Standing → α → Prop} {post' : Standing → β → Prop}
    {standing : Standing} {script : Script α} {k : α → Script β}
    (h : Follows pid post standing script)
    (hk : ∀ standing answer, post standing answer → Follows pid post' standing (k answer)) :
    Follows pid post' standing (script >>= k) := by
  show Follows pid post' standing (script.bind k)
  induction h with
  | done h => exact hk _ _ h
  | note _ ih => exact .note ih
  | probe _ ih => exact .probe ih
  | found _ _ hok herror => exact .found hok herror
  | rootOf valid _ _ hknown hunknown => exact .rootOf valid hknown hunknown
  | claim _ ih => exact .claim ih
  | dismiss _ ih => exact .dismiss ih

end Script

namespace Request

open Script

theorem foundOnce_follows (hv : pid.isValid = true) (origin : FileId) (policy : Policy) :
    Follows pid (fun standing answer => standing = .ofFounding answer) .outside
      (foundOnce pid origin policy) := by
  unfold foundOnce
  refine .found (.done rfl) fun cause => ?_
  cases cause with
  | forbidden =>
    refine .rootOf hv (.done ?_) fun root hother => .done ?_
    · rw [if_pos rfl]
      rfl
    · rw [if_neg hother]
      rfl
  | _ => exact .done rfl

theorem claimOrigin_follows (standing : Standing) (origin : FileId) :
    Follows pid (fun later _ => later = standing) standing (claimOrigin pid origin) := by
  unfold claimOrigin
  split
  · exact .claim fun answer => .done rfl
  · exact .done rfl

theorem perform_follows (hv : pid.isValid = true) (origin : FileId) (policy : Policy) :
    Follows pid (Standing.Answers pid) .outside (perform pid origin policy) := by
  unfold perform
  refine (foundOnce_follows hv origin policy).bind fun standing answer hstanding => ?_
  subst hstanding
  cases answer with
  | error cause => exact .done ⟨_, rfl⟩
  | ok isNew =>
    refine (claimOrigin_follows _ origin).bind fun standing answer hstanding => ?_
    subst hstanding
    cases answer with
    | ok =>
      cases isNew with
      | true => exact .note (.done rfl)
      | false => exact .note (.done (.inl rfl))
    | error cause =>
      cases isNew with
      | true => exact .dismiss fun _ => .note (.done ⟨_, rfl⟩)
      | false => exact .note (.done (.inr ⟨_, rfl⟩))

theorem registration_follows (pid : Pid) (origin : FileId) (policy : Policy) :
    Follows pid (Standing.Answers pid) .outside (register pid origin policy).dispatch := by
  show Follows pid _ .outside (registration pid origin policy)
  unfold registration
  split
  · exact .done ⟨_, rfl⟩
  · rename_i hv
    refine .probe fun running => ?_
    cases running with
    | true => exact perform_follows (by simpa using hv) origin policy
    | false => exact .done ⟨_, rfl⟩

end Request

/-! ## One turn -/

/-- What a step does to the membership of the process, and where it leads. -/
inductive Standing.Moves (pid : Pid) (before after : List Family) : Standing → Standing → Prop
  | stay (standing : Standing)
    (same : ∀ root, HasMember after root pid ↔ HasMember before root pid) :
    Moves pid before after standing standing
  | join (rooted : HasMember before pid pid) (same : after = before) :
    Moves pid before after .outside .guest
  | found (free : ∀ root, ¬ HasMember before root pid)
    (rooted : ∀ root, HasMember after root pid ↔ root = pid) :
    Moves pid before after .outside .holder
  | leave (gone : ∀ root, ¬ HasMember after root pid) : Moves pid before after .holder .former

theorem Change.Turns.free_of_found {allocates : Allocator} {before after : List Family}
    (ht : (Change.found pid).Turns allocates limits before after) (root : Pid) :
    ¬ HasMember before root pid := by
  cases ht with
  | found _ fresh =>
    rintro ⟨g, hg, -, hp⟩
    exact (fresh g hg).2 hp

theorem Script.Follows.step {post : Standing → α → Prop} {standing : Standing} {script : Script α}
    (h : Follows pid post standing script) (host : Host) (expired : Bool)
    (hs : SoundTable host.allocates reg.families) :
    ∃ later, Follows pid post later (script.step host expired reg).2 ∧
      standing.Moves pid reg.families (script.step host expired reg).1.families later := by
  -- only the calls `found` and `dismiss` touch the membership of `pid`
  cases h with
  | done h => exact ⟨_, .done h, .stay _ fun _ => .rfl⟩
  | note h => exact ⟨_, h, .stay _ fun _ => .rfl⟩
  | probe h => exact ⟨_, h _, .stay _ fun _ => .rfl⟩
  | @found origin policy next ok error =>
    show ∃ later,
      Follows pid post later (next (reg.found host.allocates pid origin policy).answer) ∧ _
    rcases Registry.found_cases reg pid origin policy with ⟨hok, turns⟩ | ⟨cause, herror, hsame⟩
    · rw [hok]
      have hfree := turns.free_of_found
      refine ⟨_, ok, .found hfree fun root => ?_⟩
      show HasMember (reg.found host.allocates pid origin policy).registry.families root pid ↔ _
      rw [turns.hasMember_found, and_iff_left rfl, or_iff_left (hfree root)]
    · rw [herror]
      refine ⟨_, error cause, .stay _ fun root => ?_⟩
      show HasMember (reg.found host.allocates pid origin policy).registry.families root pid ↔ _
      rw [hsame]
  | @rootOf next valid known unknown =>
    show ∃ later, Follows pid post later (next (reg.rootOf pid)) ∧
      Standing.Moves pid reg.families reg.families .outside later
    by_cases hroot : reg.rootOf pid = pid
    · rw [hroot]
      exact ⟨_, known, .join ((Registry.rootOf_eq_iff hs valid).1 hroot) rfl⟩
    · exact ⟨_, unknown _ hroot, .stay _ fun _ => .rfl⟩
  | claim h => exact ⟨_, h _, .stay _ fun root => Registry.hasMember_claim hs⟩
  | dismiss h =>
    refine ⟨_, h _, .leave fun root hroot => ?_⟩
    exact ((Registry.hasMember_dismiss hs).1 hroot).1 rfl

/-! ## All turns -/

def Registry.IsLiveRoot (reg : Registry) (pid : Pid) : Prop :=
  ∃ f ∈ reg.families, f.root = pid ∧ f.isLive = true

instance : Decidable (reg.IsLiveRoot pid) :=
  inferInstanceAs (Decidable (∃ f ∈ reg.families, f.root = pid ∧ f.isLive = true))

def Script.answer? : Script α → Option α
  | .done answer => some answer
  | _ => none

namespace Concurrent

def answer? (c : Concurrent α) (i : Nat) : Option α := c.scripts[i]?.bind Script.answer?

def isOver (c : Concurrent α) : Bool := c.scripts.all fun script => script.answer?.isSome

def inOrder (host : Host) (c : Concurrent α) (order : List Nat) : Concurrent α :=
  c.run host (order.map fun i => .resume i false)

def broughtBy (host : Host) (pid : Pid) (c : Concurrent α) (i : Nat) : List Nat :=
  if !c.registry.tracks pid && (c.turn host (.resume i false)).registry.tracks pid then [i] else []

/-- The scripts that bring `pid` into the registry, one after the other. -/
def founders (host : Host) (pid : Pid) (c : Concurrent α) : List Nat → List Nat
  | [] => []
  | i :: order =>
    c.broughtBy host pid i ++ (c.turn host (.resume i false)).founders host pid order

end Concurrent

open Script

/-- Registrations of `pid` at a time when those in `founders` have founded its family. No more than
one of them holds it, and the process has no other family. -/
structure Contest (host : Host) (limits : Limits) (pid : Pid) (founders : List Nat)
    (c : Concurrent (Except ControlError Response)) (standings : List Standing) : Prop where
  reachable : Registry.Reachable host.allocates limits c.registry
  length : standings.length = c.scripts.length
  follows : ∀ (i : Nat) standing script, standings[i]? = some standing →
    c.scripts[i]? = some script → Follows pid (Standing.Answers pid) standing script
  alone : standings.count .holder ≤ 1
  held : ∀ root, HasMember c.registry.families root pid ↔ root = pid ∧ standings.count .holder = 1
  founded : ∀ i, i ∈ founders ↔ ∃ standing, standings[i]? = some standing ∧ standing.HasFounded
  joined : .guest ∈ standings → founders ≠ []

variable {c : Concurrent (Except ControlError Response)} {founders : List Nat}
variable {standings : List Standing} {before after : List Family} {standing later : Standing}
variable {i : Nat}

theorem Standing.count_set (hi : standings[i]? = some standing) (later : Standing) :
    (standings.set i later).count .holder + (if standing = .holder then 1 else 0) =
      standings.count .holder + if later = .holder then 1 else 0 := by
  obtain ⟨hlt, rfl⟩ := List.getElem?_eq_some_iff.1 hi
  have hpos : standings[i] = .holder → 0 < standings.count .holder := fun heq =>
    List.count_pos_iff.2 (heq ▸ List.getElem_mem hlt)
  rw [List.count_set hlt]
  simp only [beq_iff_eq]
  split
  · have := hpos ‹_›
    omega
  · omega

theorem Standing.Moves.held (h : standing.Moves pid before after later)
    (hi : standings[i]? = some standing) (halone : standings.count .holder ≤ 1)
    (hheld : ∀ root, HasMember before root pid ↔ root = pid ∧ standings.count .holder = 1) :
    (standings.set i later).count .holder ≤ 1 ∧
      ∀ root, HasMember after root pid ↔
        root = pid ∧ (standings.set i later).count .holder = 1 := by
  have hcount := Standing.count_set hi later
  cases h with
  | stay _ same =>
    have hsame := Nat.add_right_cancel hcount
    rw [hsame]
    exact ⟨halone, fun root => (same root).trans (hheld root)⟩
  | join _ same =>
    have hsame : (standings.set i .guest).count .holder = standings.count .holder := by
      simpa using hcount
    rw [hsame, same]
    exact ⟨halone, hheld⟩
  | found free rooted =>
    have hnone : standings.count .holder ≠ 1 := fun hone => free pid ((hheld pid).2 ⟨rfl, hone⟩)
    have hone : (standings.set i .holder).count .holder = 1 := by
      simp only [reduceCtorEq, if_false, if_true] at hcount
      omega
    rw [hone]
    exact ⟨Nat.le_refl 1, fun root => (rooted root).trans (and_iff_left rfl).symm⟩
  | leave gone =>
    have hnone : (standings.set i .former).count .holder = 0 := by
      simp only [reduceCtorEq, if_false, if_true] at hcount
      omega
    rw [hnone]
    exact ⟨Nat.zero_le 1, fun root => iff_of_false (gone root) fun hone => nomatch hone.2⟩

theorem Standing.Moves.hasFounded (h : standing.Moves pid before after later)
    (hstanding : standing.HasFounded) : later.HasFounded := by
  cases h with
  | stay => exact hstanding
  | join | found => cases hstanding
  | leave => trivial

theorem Standing.Moves.founds_iff (h : standing.Moves pid before after later) :
    later.HasFounded ∧ ¬ standing.HasFounded ↔
      (¬ ∃ root, HasMember before root pid) ∧ ∃ root, HasMember after root pid := by
  cases h with
  | stay _ same =>
    simp only [same]
    exact iff_of_false (fun h => h.2 h.1) fun h => h.1 h.2
  | join rooted => exact iff_of_false And.left fun h => h.1 ⟨pid, rooted⟩
  | found free rooted =>
    refine iff_of_true ⟨trivial, id⟩ ⟨?_, pid, (rooted pid).2 rfl⟩
    rintro ⟨root, hroot⟩
    exact free root hroot
  | leave gone =>
    refine iff_of_false (fun h => h.2 trivial) ?_
    rintro ⟨-, root, hroot⟩
    exact gone root hroot

theorem Concurrent.mem_broughtBy {c : Concurrent α} {j : Nat}
    (hs : SoundTable host.allocates c.registry.families)
    (hs' : SoundTable host.allocates (c.turn host (.resume i false)).registry.families) :
    j ∈ c.broughtBy host pid i ↔
      j = i ∧ (¬ ∃ root, HasMember c.registry.families root pid) ∧
        ∃ root, HasMember (c.turn host (.resume i false)).registry.families root pid := by
  rw [← hs.tracks_iff, ← hs'.tracks_iff, broughtBy]
  cases c.registry.tracks pid <;>
    cases (c.turn host (.resume i false)).registry.tracks pid <;> simp

namespace Contest

theorem one_iff (h : Contest host limits pid founders c standings) :
    standings.count .holder = 1 ↔ .holder ∈ standings := by
  rw [← List.count_pos_iff]
  have := h.alone
  omega

theorem mem_founders (h : Contest host limits pid founders c standings)
    (hholder : .holder ∈ standings) : ∃ i ∈ founders, standings[i]? = some .holder := by
  obtain ⟨i, hi⟩ := List.getElem?_of_mem hholder
  exact ⟨i, (h.founded i).2 ⟨_, hi, trivial⟩, hi⟩

theorem holder_or_former (h : Contest host limits pid founders c standings) (hi : i ∈ founders) :
    standings[i]? = some .holder ∨ standings[i]? = some .former := by
  obtain ⟨standing, hstanding, hfounded⟩ := (h.founded i).1 hi
  cases standing with
  | outside | guest => cases hfounded
  | holder => exact .inl hstanding
  | former => exact .inr hstanding

variable {script rest : Script (Except ControlError Response)}

theorem standing_of_script (h : Contest host limits pid founders c standings)
    (hi : c.scripts[i]? = some script) : ∃ standing, standings[i]? = some standing := by
  obtain ⟨hlt, -⟩ := List.getElem?_eq_some_iff.1 hi
  exact ⟨_, List.getElem?_eq_getElem (h.length ▸ hlt)⟩

theorem follows_set (h : Contest host limits pid founders c standings)
    (hrest : Follows pid (Standing.Answers pid) later rest) (j : Nat) :
    ∀ standing script, (standings.set i later)[j]? = some standing →
      (c.scripts.set i rest)[j]? = some script →
      Follows pid (Standing.Answers pid) standing script := by
  intro standing script hj hj'
  by_cases heq : i = j
  · subst heq
    rw [List.getElem?_set_self'] at hj hj'
    obtain ⟨-, -, rfl⟩ := Option.map_eq_some_iff.1 hj
    obtain ⟨-, -, rfl⟩ := Option.map_eq_some_iff.1 hj'
    exact hrest
  · rw [List.getElem?_set_ne heq] at hj hj'
    exact h.follows j _ _ hj hj'

theorem founded_set (h : Contest host limits pid founders c standings)
    (hi : standings[i]? = some standing)
    (hmoves : standing.Moves pid c.registry.families after later) (brought : List Nat)
    (hbrought : ∀ j, j ∈ brought ↔ j = i ∧ (¬ ∃ root, HasMember c.registry.families root pid) ∧
      ∃ root, HasMember after root pid) (j : Nat) :
    j ∈ founders ++ brought ↔
      ∃ standing, (standings.set i later)[j]? = some standing ∧ standing.HasFounded := by
  obtain ⟨hlt, -⟩ := List.getElem?_eq_some_iff.1 hi
  rw [List.mem_append, h.founded, hbrought, ← hmoves.founds_iff]
  by_cases heq : i = j
  · subst heq
    rw [List.getElem?_set_self hlt, hi]
    simp only [Option.some.injEq, exists_eq_left', true_and]
    constructor
    · rintro (hbefore | ⟨hlater, -⟩)
      · exact hmoves.hasFounded hbefore
      · exact hlater
    · intro hlater
      by_cases hbefore : standing.HasFounded
      · exact .inl hbefore
      · exact .inr ⟨hlater, hbefore⟩
  · rw [List.getElem?_set_ne heq]
    simp [Ne.symm heq]

theorem joined_set (h : Contest host limits pid founders c standings)
    (hi : standings[i]? = some standing)
    (hmoves : standing.Moves pid c.registry.families after later)
    (hguest : .guest ∈ standings.set i later) : founders ≠ [] := by
  rcases List.mem_or_eq_of_mem_set hguest with hmem | rfl
  · exact h.joined hmem
  · cases hmoves with
    | stay => exact h.joined (List.mem_of_getElem? hi)
    | join rooted =>
      -- whose family it has found is a founder
      obtain ⟨i, hfounder, -⟩ := h.mem_founders (h.one_iff.1 ((h.held pid).1 rooted).2)
      exact List.ne_nil_of_mem hfounder

theorem turn (h : Contest host limits pid founders c standings) (i : Nat) :
    ∃ later, Contest host limits pid (founders ++ c.broughtBy host pid i)
      (c.turn host (.resume i false)) later := by
  have hreach : Registry.Reachable host.allocates limits (c.turn host (.resume i false)).registry :=
    Concurrent.reachable_run [.resume i false] h.reachable
  cases hscript : c.scripts[i]? with
  | none =>
    -- there is no such script, and nothing happens
    have hsame : c.turn host (.resume i false) = c := by simp only [Concurrent.turn, hscript]
    refine ⟨standings, ?_⟩
    simpa [Concurrent.broughtBy, hsame] using h
  | some script =>
    obtain ⟨standing, hi⟩ := h.standing_of_script hscript
    obtain ⟨later, hrest, hmoves⟩ := (h.follows i _ _ hi hscript).step host false h.reachable.sound
    have hturn : c.turn host (.resume i false) = _ := Concurrent.turn_resume hscript
    generalize script.step host false c.registry = made at hrest hmoves hturn
    obtain ⟨after, rest⟩ := made
    have hbrought (j : Nat) : j ∈ c.broughtBy host pid i ↔
        j = i ∧ (¬ ∃ root, HasMember c.registry.families root pid) ∧
          ∃ root, HasMember after.families root pid := by
      rw [Concurrent.mem_broughtBy h.reachable.sound hreach.sound, hturn]
    rw [hturn] at hreach ⊢
    obtain ⟨halone, hheld⟩ := hmoves.held hi h.alone h.held
    have hlength : (standings.set i later).length = (c.scripts.set i rest).length := by
      rw [List.length_set, List.length_set, h.length]
    refine ⟨standings.set i later, hreach, hlength, h.follows_set hrest, halone, hheld,
      h.founded_set hi hmoves _ hbrought, fun hguest => ?_⟩
    exact List.append_ne_nil_of_left_ne_nil (h.joined_set hi hmoves hguest) _

theorem inOrder (h : Contest host limits pid founders c standings) (order : List Nat) :
    ∃ later, Contest host limits pid (founders ++ c.founders host pid order)
      (c.inOrder host order) later := by
  induction order generalizing c founders standings with
  | nil =>
    rw [Concurrent.founders, List.append_nil]
    exact ⟨standings, h⟩
  | cons i order ih =>
    obtain ⟨next, hnext⟩ := h.turn i
    rw [Concurrent.founders, ← List.append_assoc]
    exact ih hnext

/-! ## When all is over -/

theorem isLiveRoot_iff (h : Contest host limits pid founders c standings) :
    c.registry.IsLiveRoot pid ↔ .holder ∈ standings := by
  have hheld := h.held pid
  rw [and_iff_right rfl, h.one_iff] at hheld
  rw [← hheld]
  constructor
  · rintro ⟨f, hf, rfl, hlive⟩
    exact ⟨f, hf, rfl, Family.isLive_iff.1 hlive⟩
  · rintro ⟨f, hf, rfl, hp⟩
    exact ⟨f, hf, rfl, Family.isLive_iff.2 hp⟩

theorem answers (h : Contest host limits pid founders c standings)
    (hi : standings[i]? = some standing) {answer : Except ControlError Response}
    (ha : c.answer? i = some answer) : standing.Answers pid answer := by
  obtain ⟨script, hscript, hdone⟩ := Option.bind_eq_some_iff.1 ha
  cases h.follows i _ _ hi hscript with
  | done hanswers =>
    cases hdone
    exact hanswers
  | _ => cases hdone

theorem of_registered (h : Contest host limits pid founders c standings)
    (ha : c.answer? i = some (.ok (.registered pid))) :
    .holder ∈ standings ∨ .guest ∈ standings := by
  obtain ⟨script, hscript, -⟩ := Option.bind_eq_some_iff.1 ha
  obtain ⟨standing, hi⟩ := h.standing_of_script hscript
  have hanswers := h.answers hi ha
  have hmem := List.mem_of_getElem? hi
  cases standing with
  | outside | former =>
    obtain ⟨error, herror⟩ := hanswers
    cases herror
  | guest => exact .inr hmem
  | holder => exact .inl hmem

theorem answered (h : Contest host limits pid founders c standings) (hover : c.isOver = true)
    (hi : standings[i]? = some standing) :
    ∃ answer, c.answer? i = some answer ∧ standing.Answers pid answer := by
  obtain ⟨hlt, -⟩ := List.getElem?_eq_some_iff.1 hi
  have hscript := List.getElem?_eq_getElem (h.length ▸ hlt)
  have hsome := List.all_eq_true.1 hover _ (List.mem_of_getElem? hscript)
  obtain ⟨answer, hanswer⟩ := Option.isSome_iff_exists.1 hsome
  have ha : c.answer? i = some answer := by
    rw [Concurrent.answer?, hscript, Option.bind_some, hanswer]
  exact ⟨answer, ha, h.answers hi ha⟩

end Contest

namespace Request

/-- Callers that register `pid`, each with its own origin and policy, before the first turn. -/
def contenders (reg : Registry) (pid : Pid) (asked : List (FileId × Policy)) :
    Concurrent (Except ControlError Response) where
  registry := reg
  scripts := asked.map fun (origin, policy) => (register pid origin policy).dispatch

theorem contest_contenders (h : Registry.Reachable host.allocates limits reg)
    (hno : reg.tracks pid = false) (asked : List (FileId × Policy)) :
    Contest host limits pid [] (contenders reg pid asked)
      (List.replicate asked.length .outside) where
  reachable := h
  length := by simp [contenders]
  follows i standing script hi hscript := by
    obtain rfl := List.eq_of_mem_replicate (List.mem_of_getElem? hi)
    obtain ⟨⟨origin, policy⟩, -, rfl⟩ := List.mem_map.1 (List.mem_of_getElem? hscript)
    exact registration_follows pid origin policy
  alone := by simp [List.count_replicate]
  held root := by
    refine iff_of_false (fun hroot => ?_) (by simp [List.count_replicate])
    rw [h.sound.tracks_iff.2 ⟨root, hroot⟩] at hno
    cases hno
  founded i := by
    refine iff_of_false List.not_mem_nil ?_
    rintro ⟨standing, hi, hfounded⟩
    rw [List.eq_of_mem_replicate (List.mem_of_getElem? hi)] at hfounded
    exact hfounded
  joined hguest := nomatch List.eq_of_mem_replicate hguest

/-- When all registrations of a process are over, it is the root of a live family exactly if one
that has founded the family was answered so. To another one the answer says only that there was a
founder, which may have ended with an error. -/
theorem kept_by_founder (h : Registry.Reachable host.allocates limits reg)
    (hno : reg.tracks pid = false) (asked : List (FileId × Policy)) (order : List Nat) :
    let start := contenders reg pid asked
    let last := start.inOrder host order
    last.isOver = true →
      (last.registry.IsLiveRoot pid ↔
        ∃ i ∈ start.founders host pid order, last.answer? i = some (.ok (.registered pid))) ∧
      ∀ i, last.answer? i = some (.ok (.registered pid)) →
        last.registry.IsLiveRoot pid ∨
          ∃ j ∈ start.founders host pid order, ∃ error, last.answer? j = some (.error error) := by
  intro start last hover
  obtain ⟨standings, hlast⟩ := (contest_contenders h hno asked).inOrder order
  rw [List.nil_append] at hlast
  rw [hlast.isLiveRoot_iff]
  refine ⟨⟨fun hholder => ?_, ?_⟩, fun i hregistered => ?_⟩
  · obtain ⟨i, hfounder, hi⟩ := hlast.mem_founders hholder
    obtain ⟨answer, ha, rfl⟩ := hlast.answered hover hi
    exact ⟨i, hfounder, ha⟩
  · rintro ⟨i, hfounder, hregistered⟩
    rcases hlast.holder_or_former hfounder with hi | hi
    · exact List.mem_of_getElem? hi
    · obtain ⟨error, herror⟩ := hlast.answers hi hregistered
      cases herror
  · rcases hlast.of_registered hregistered with hholder | hguest
    · exact .inl hholder
    · obtain ⟨j, hfounder⟩ := List.exists_mem_of_ne_nil _ (hlast.joined hguest)
      rcases hlast.holder_or_former hfounder with hj | hj
      · exact .inl (List.mem_of_getElem? hj)
      · obtain ⟨answer, ha, error, rfl⟩ := hlast.answered hover hj
        exact .inr ⟨j, hfounder, error, ha⟩

/-- 20 has the origin of the first caller, so the family of 30 is taken back after the second caller
has been answered. The third one founds it again. -/
theorem kept_by_founder_again :
    let host := ({} : Machine).host
    let reg := (Registry.empty {}).execAll host.allocates guarded
    let asked : List (FileId × Policy) :=
      [(⟨8⟩, .noRestriction), (.invalid, .noRestriction), (.invalid, .protectDroppedFiles)]
    let order := [0, 0, 1, 1, 1, 1, 0, 0, 0, 2, 2, 2]
    let start := contenders reg ⟨30⟩ asked
    let last := start.inOrder host order
    Registry.Reachable host.allocates {} reg ∧ reg.tracks ⟨30⟩ = false ∧
      start.founders host ⟨30⟩ order = [0, 2] ∧
      last.answer? 0 = some (.error (.refused .forbidden)) ∧
      last.answer? 1 = some (.ok (.registered ⟨30⟩)) ∧
      last.answer? 2 = some (.ok (.registered ⟨30⟩)) ∧ last.registry.IsLiveRoot ⟨30⟩ := by
  intro host reg asked order start last
  have h : Registry.Reachable host.allocates {} reg := Registry.Reachable.execAll _ .empty
  have hno : reg.tracks ⟨30⟩ = false := by decide
  have hfounders : start.founders host ⟨30⟩ order = [0, 2] := by decide
  have hlast : last.answer? 2 = some (.ok (.registered ⟨30⟩)) := by decide
  have hkept := (kept_by_founder h hno asked order (by decide)).1.2 ⟨2, by decide, hlast⟩
  exact ⟨h, hno, hfounders, by decide, by decide, hlast, hkept⟩

/-- The second caller is answered after the family has been founded by the first one, and before the
first one takes it back. -/
theorem not_kept_by_answer : ¬ ∀ (host : Host) (limits : Limits) (reg : Registry) (pid : Pid)
    (first second : FileId × Policy) (order : List Nat),
    Registry.Reachable host.allocates limits reg → reg.tracks pid = false →
    host.isRunning pid = true →
    let last := (contenders reg pid [first, second]).inOrder host order
    last.isOver = true →
    (last.answer? 0 = some (.ok (.registered pid)) ∨
      last.answer? 1 = some (.ok (.registered pid))) →
    last.registry.IsLiveRoot pid := by
  intro hall
  let host := ({} : Machine).host
  let reg := (Registry.empty {}).execAll host.allocates guarded
  have h : Registry.Reachable host.allocates {} reg := Registry.Reachable.execAll _ .empty
  have hno : reg.tracks ⟨30⟩ = false := by decide
  have hbad := hall host {} reg ⟨30⟩ (⟨8⟩, .noRestriction) (.invalid, .noRestriction)
    [0, 0, 1, 1, 1, 1, 0, 0, 0] h hno rfl (by decide) (.inr (by decide))
  revert hbad
  decide

end Request

end Containment
