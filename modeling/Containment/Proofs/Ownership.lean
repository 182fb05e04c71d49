import Containment.Proofs.Admission

/-!
# Single ownership

A registry that calls have led to from an empty one is sound, as every call is a run of changes
(`exec_changes`) and every change keeps a table sound. `single_owner` spells out what that means:
no root, no process and no file is found in two slots.
-/

namespace Containment.Registry

variable {allocates : Allocator} {limits : Limits} {reg : Registry}

/-! ## Limits -/

@[simp] theorem limits_record {slot : Slot} {item : Item} {taken : Except Refusal Family} :
    (reg.record slot item taken).registry.limits = reg.limits := by
  rcases record_cases reg slot item taken with ⟨g, -, -, hr⟩ | ⟨cause, -, -, hr⟩
  · rw [hr]; rfl
  · rw [hr]

@[simp] theorem limits_enrollAt {slot : Slot} {pid : Pid} :
    (reg.enrollAt allocates slot pid).registry.limits = reg.limits := by
  unfold enrollAt
  split
  · rfl
  · rw [limits_record]

@[simp] theorem limits_disown {file : FileId} :
    (reg.disown file).registry.limits = reg.limits := by
  unfold disown
  repeat' split
  all_goals simp

@[simp] theorem limits_freed {file : FileId} {owner : Pid} :
    (reg.freed file owner).limits = reg.limits := by
  unfold freed
  split
  · rw [limits_disown]
  · rfl

theorem limits_exec (call : Call) : (reg.exec allocates call).registry.limits = reg.limits := by
  cases call with
  | found root origin policy =>
    simp only [exec, found]
    repeat' split
    all_goals rfl
  | enroll child anchor =>
    simp only [exec, enroll]
    repeat' split
    all_goals simp [refuse]
  | claim file owner =>
    simp only [exec, claim]
    repeat' split
    all_goals simp [refuse, claimAt, reclaim]
  | adopt pid file =>
    simp only [exec, adopt]
    repeat' split
    all_goals simp [refuse]
  | dismiss pid =>
    simp only [exec, dismiss]
    repeat' split
    all_goals simp
  | disown file => exact limits_disown
  | leave pid =>
    simp only [exec, leave, dismiss]
    repeat' split
    all_goals simp
  | _ => rfl

/-! ## What a call changes -/

/-- The change that a call makes when it succeeds. A claim may make another one first. -/
inductive Makes : Call → Change → Prop
  | found (root : Pid) (origin : FileId) (policy : Policy) :
    Makes (.found root origin policy) (.found root)
  | enroll (child anchor root : Pid) : Makes (.enroll child anchor) (.enroll child root)
  | adopt (pid : Pid) (file : FileId) (root : Pid) : Makes (.adopt pid file) (.enroll pid root)
  | claim (file : FileId) (owner root : Pid) : Makes (.claim file owner) (.claim file root)
  | dismiss (pid : Pid) : Makes (.dismiss pid) (.dismiss pid)
  | leave (pid : Pid) : Makes (.leave pid) (.dismiss pid)
  | disown (file : FileId) : Makes (.disown file) (.disown file)
  | reset : Makes .reset .reset

/-- What a call does to the table. A claim that has taken its file from a family without processes
may be refused after that. -/
inductive Effect (allocates : Allocator) (limits : Limits) (call : Call)
    (before after : List Family) : Prop
  | none (same : after = before)
  | change (change : Change) (makes : Makes call change)
    (turns : change.Turns allocates limits before after)
  | reclaim (file : FileId) (owner : Pid) (mid : List Family) (claims : call = .claim file owner)
    (empty : ∀ root pid, HasFile before root file → ¬ HasMember before root pid)
    (freed : (Change.disown file).Turns allocates limits before mid)
    (next : after = mid ∨ ∃ root, (Change.claim file root).Turns allocates limits mid after)

theorem Intake.effect {pid : Pid} {step : Step (Except Refusal Unit)} {call : Call}
    (h : Intake allocates reg pid step) (hm : ∀ root, Makes call (.enroll pid root)) :
    Effect allocates reg.limits call reg.families step.registry.families := by
  cases h with
  | taken root _ turns => exact .change _ (hm root) turns
  | refused _ _ same _ => exact .none (congrArg _ same)

theorem dismiss_effect {pid : Pid} {call : Call} (h : SoundTable allocates reg.families)
    (hm : Makes call (.dismiss pid)) :
    Effect allocates reg.limits call reg.families (reg.dismiss pid).registry.families := by
  rcases dismiss_cases h pid with turns | ⟨hsame, -⟩
  · exact .change _ hm turns
  · exact .none (congrArg _ hsame)

theorem claim_effect (h : SoundTable allocates reg.families) (file : FileId) (owner : Pid) :
    Effect allocates reg.limits (.claim file owner) reg.families
      (reg.claim allocates file owner).registry.families := by
  rcases claim_cases h _ file owner with ⟨_, -, hsame, -⟩ | ⟨slot, -, hgrant⟩
  · exact .none (congrArg _ hsame)
  let after := (reg.claim allocates file owner).registry.families
  have hthen : after = (reg.freed file owner).families ∨
      (Change.claim file slot.family.root).Turns allocates reg.limits
        (reg.freed file owner).families after := by
    cases hgrant with
    | granted _ turns =>
      rw [limits_freed] at turns
      exact .inr turns
    | refused _ _ _ same => exact .inl (congrArg Registry.families same)
  have hfreed : reg.freed file owner = reg ∨
      reg.frees file owner = true ∧ (Change.disown file).Turns allocates reg.limits reg.families
        (reg.freed file owner).families := by
    unfold freed
    split
    · rename_i hfrees
      rcases disown_cases h file with turns | ⟨hsame, -⟩
      · exact .inr ⟨hfrees, turns⟩
      · exact .inl hsame
    · exact .inl rfl
  rcases hfreed with hsame | ⟨hfrees, turns⟩
  · rw [hsame] at hthen
    rcases hthen with hrefused | hclaim
    · exact .none hrefused
    · exact .change _ (.claim file owner _) hclaim
  · have hempty (root pid : Pid) (hf : HasFile reg.families root file) :
        ¬ HasMember reg.families root pid := not_hasMember_of_frees h hfrees hf
    exact .reclaim file owner _ rfl hempty turns (hthen.imp_right fun hclaim => ⟨_, hclaim⟩)

theorem exec_effect (h : SoundTable allocates reg.families) (call : Call) :
    Effect allocates reg.limits call reg.families (reg.exec allocates call).registry.families := by
  cases call with
  | found root origin policy =>
    rcases found_cases reg root origin policy with ⟨-, turns⟩ | ⟨_, -, hsame⟩
    · exact .change _ (.found root origin policy) turns
    · exact .none (congrArg _ hsame)
  | enroll child anchor => exact (enroll_intake h _ child anchor).effect (.enroll child anchor)
  | adopt pid file => exact (adopt_intake h _ pid file).effect (.adopt pid file)
  | claim file owner => exact claim_effect h file owner
  | dismiss pid => exact dismiss_effect h (.dismiss pid)
  | disown file =>
    rcases disown_cases h file with turns | ⟨hsame, -⟩
    · exact .change _ (.disown file) turns
    · exact .none (congrArg _ hsame)
  | leave pid =>
    show Effect _ _ _ _ (reg.leave pid).registry.families
    unfold leave
    split
    · exact .none rfl
    · exact dismiss_effect h (.leave pid)
  | reset => exact .change _ .reset .reset
  | _ => exact .none rfl

/-! ## Runs of changes -/

abbrev Changes (allocates : Allocator) (limits : Limits) : List Family → List Family → Prop :=
  Relation.ReflTransGen fun before after => ∃ change : Change,
    change.Turns allocates limits before after

theorem Changes.of_turns {change : Change} {before after : List Family}
    (h : change.Turns allocates limits before after) : Changes allocates limits before after :=
  .single ⟨change, h⟩

theorem Effect.changes {call : Call} {before after : List Family}
    (h : Effect allocates limits call before after) : Changes allocates limits before after := by
  cases h with
  | none same => rw [same]
  | change _ _ turns => exact .of_turns turns
  | reclaim _ _ mid _ _ freed hthen =>
    have hfirst : Changes allocates limits before mid := .of_turns freed
    rcases hthen with hsame | ⟨root, turns⟩
    · rwa [hsame]
    · exact hfirst.tail ⟨_, turns⟩

theorem exec_changes (h : SoundTable allocates reg.families) (call : Call) :
    Changes allocates reg.limits reg.families (reg.exec allocates call).registry.families :=
  (exec_effect h call).changes

theorem dismiss_changes (h : SoundTable allocates reg.families) (pid : Pid) :
    Changes allocates reg.limits reg.families (reg.dismiss pid).registry.families :=
  exec_changes h (.dismiss pid)

theorem disown_changes (h : SoundTable allocates reg.families) (file : FileId) :
    Changes allocates reg.limits reg.families (reg.disown file).registry.families :=
  exec_changes h (.disown file)

theorem freed_changes (h : SoundTable allocates reg.families) (file : FileId) (owner : Pid) :
    Changes allocates reg.limits reg.families (reg.freed file owner).families := by
  unfold freed
  split
  · exact disown_changes h file
  · exact .refl

theorem Changes.sound {before after : List Family} (h : Changes allocates limits before after)
    (hs : SoundTable allocates before) : SoundTable allocates after := by
  induction h with
  | refl => exact hs
  | tail _ hstep ih =>
    obtain ⟨change, ht⟩ := hstep
    exact ht.sound ih

theorem Changes.keeps {before after : List Family} {P : List Family → Prop}
    (hstep : ∀ {change : Change} {before after : List Family},
      change.Turns allocates limits before after → SoundTable allocates before → P before → P after)
    (h : Changes allocates limits before after) (hs : SoundTable allocates before)
    (hp : P before) : P after := by
  induction h with
  | refl => exact hp
  | tail hrun hlast ih =>
    obtain ⟨change, ht⟩ := hlast
    exact hstep ht (Changes.sound hrun hs) ih

theorem sound_exec (h : SoundTable allocates reg.families) (call : Call) :
    SoundTable allocates (reg.exec allocates call).registry.families :=
  (exec_changes h call).sound h

theorem execAll_append {first second : List Call} :
    reg.execAll allocates (first ++ second) =
      (reg.execAll allocates first).execAll allocates second :=
  List.foldl_append

theorem sound_execAll (h : SoundTable allocates reg.families) (calls : List Call) :
    SoundTable allocates (reg.execAll allocates calls).families := by
  induction calls generalizing reg with
  | nil => exact h
  | cons call calls ih => exact ih (sound_exec h call)

/-! ## Members -/

variable {root owner x : Pid} {file : FileId}

theorem hasMember_disown (h : SoundTable allocates reg.families) :
    HasMember (reg.disown file).registry.families root x ↔ HasMember reg.families root x := by
  rcases disown_cases h file with turns | ⟨hsame, -⟩
  · exact turns.hasMember_disown
  · rw [hsame]

theorem hasMember_freed (h : SoundTable allocates reg.families) :
    HasMember (reg.freed file owner).families root x ↔ HasMember reg.families root x := by
  unfold freed
  split
  · exact hasMember_disown h
  · rfl

theorem hasMember_claim (h : SoundTable allocates reg.families) :
    HasMember (reg.claim allocates file owner).registry.families root x ↔
      HasMember reg.families root x := by
  rcases claim_cases h _ file owner with ⟨cause, -, hsame, -⟩ | ⟨slot, -, hgrant⟩
  · rw [hsame]
  cases hgrant with
  | granted _ turns =>
    rw [turns.hasMember_claim ((freed_changes h file owner).sound h), hasMember_freed h]
  | refused _ _ _ same => rw [same, hasMember_freed h]

/-! ## Reachable registries -/

theorem Reachable.sound (h : Reachable allocates limits reg) :
    SoundTable allocates reg.families := by
  induction h with
  | empty => exact .nil
  | call c _ ih => exact sound_exec ih c

theorem Reachable.limits_eq (h : Reachable allocates limits reg) : reg.limits = limits := by
  induction h with
  | empty => rfl
  | call c _ ih => exact (limits_exec c).trans ih

theorem Reachable.keeps {P : List Family → Prop} (hempty : P [])
    (hstep : ∀ {change : Change} {before after : List Family},
      change.Turns allocates limits before after → SoundTable allocates before → P before → P after)
    (h : Reachable allocates limits reg) : P reg.families := by
  induction h with
  | empty => exact hempty
  | call c hr ih =>
    have hrun := exec_changes hr.sound c
    rw [hr.limits_eq] at hrun
    exact hrun.keeps hstep hr.sound ih

theorem Reachable.present (h : Reachable allocates limits reg) : Present reg.families :=
  h.keeps (P := Present) (by simp [Present]) fun ht hs hp => ht.present hs hp

theorem Reachable.execAll (calls : List Call) (h : Reachable allocates limits reg) :
    Reachable allocates limits (reg.execAll allocates calls) := by
  induction calls generalizing reg with
  | nil => exact h
  | cons c cs ih => exact ih (h.call c)

/-- Every root, every process and every file has one slot, the sets ascend, and no identifier that
names nothing is kept. -/
theorem single_owner (h : Reachable allocates limits reg) :
    (∀ (i j : Nat) (f g : Family), reg.families[i]? = some f → reg.families[j]? = some g →
      f.root = g.root → i = j) ∧
    (∀ (i j : Nat) (f g : Family) (pid : Pid), reg.families[i]? = some f →
      reg.families[j]? = some g → pid ∈ f.members.items → pid ∈ g.members.items → i = j) ∧
    (∀ (i j : Nat) (f g : Family) (file : FileId), reg.families[i]? = some f →
      reg.families[j]? = some g → file ∈ f.files.items → file ∈ g.files.items → i = j) ∧
    ∀ f ∈ reg.families,
      f.members.items.Pairwise (· < ·) ∧ f.files.items.Pairwise (· < ·) ∧
      f.root.isValid = true ∧ Pid.invalid ∉ f.members.items ∧
      FileId.invalid ∉ f.files.items := by
  have hs := h.sound
  refine ⟨?_, ?_, ?_, ?_⟩
  · intro i j f g hi hj hroot
    exact congrArg Slot.index (hs.slot_of_root hi hj hroot)
  · intro i j f g pid hi hj hf hg
    exact congrArg Slot.index (hs.slot_of_member hi hj hf hg)
  · intro i j f g file hi hj hf hg
    exact congrArg Slot.index (hs.slot_of_file hi hj hf hg)
  · intro f hf
    have hsf := hs.sound f hf
    exact ⟨hsf.members.ascending, hsf.files.ascending, hsf.root, hsf.pids, hsf.fileIds⟩

theorem single_owner_reclaimed :
    let reg := (empty {}).execAll (fun _ => true)
      [.found ⟨10⟩ ⟨7⟩ .protectDroppedFiles, .claim ⟨7⟩ ⟨10⟩, .found ⟨20⟩ .invalid .noRestriction,
        .found ⟨30⟩ .invalid .noRestriction, .dismiss ⟨10⟩, .claim ⟨7⟩ ⟨30⟩]
    Reachable (fun _ => true) {} reg ∧ reg.families.map Family.root = [⟨30⟩, ⟨20⟩] ∧
      reg.rootOfFile ⟨7⟩ = ⟨30⟩ ∧
      ∀ (i j : Nat) (f g : Family) (file : FileId), reg.families[i]? = some f →
        reg.families[j]? = some g → file ∈ f.files.items → file ∈ g.files.items → i = j := by
  intro reg
  have h : Reachable (fun _ => true) {} reg := Reachable.execAll _ .empty
  exact ⟨h, by decide, by decide, (single_owner h).2.2.1⟩

end Containment.Registry
