import Containment.Control
import Containment.Proofs.Capacity
import Containment.Proofs.FileAccess
import Containment.Proofs.RoundTrip

/-!
# Registrations

What a registration has done when it is over (`registration_ends`): it has been refused at once, or
a family was founded or found to be there, and the origin was claimed for it. A registration that is
answered leaves the process as the root of a live family that owns the origin (`registered`). Its
policy is the one that was asked for, unless the family was there before and had another. When the
registration of a process in no family is refused, nothing is left of it (`registration_undone`).
-/

namespace Containment

variable {host : Host} {allocates : Allocator} {limits : Limits} {reg base after : Registry}
variable {f g : Family} {pid root owner : Pid} {file origin : FileId} {policy : Policy}
variable {cause : Refusal}

/-! ## Families beside a claim -/

namespace Change.Turns

variable {fs gs : List Family}

theorem claimant (h : SoundTable allocates fs) (hf : f ∈ fs)
    (ht : (Change.claim file f.root).Turns allocates limits fs gs) :
    ∃ g ∈ gs, g.root = f.root ∧ g.policy = f.policy ∧ g.members = f.members ∧
      file ∈ g.files.items := by
  generalize hroot : f.root = root at ht
  cases ht with
  | @claim _ _ rest f' g _ valid fresh taken old new =>
    have hf' : f' ∈ fs := old.mem_iff.2 List.mem_cons_self
    obtain rfl : f = f' := h.eq_of_not_apart hf hf' fun ha => ha.roots hroot
    obtain ⟨-, -, -, -, hfiles⟩ := (h.sound f hf).claim valid taken
    obtain ⟨-, files, -, rfl⟩ := Family.claim_eq_ok taken
    exact ⟨_, new.mem_iff.2 List.mem_cons_self, rfl, rfl, rfl, (hfiles file).2 (.inl rfl)⟩

end Change.Turns

namespace Registry

theorem staffed_mem_freed (h : SoundTable allocates reg.families) (hf : f ∈ reg.families)
    (hp : pid ∈ f.members.items) : f ∈ (reg.freed file owner).families := by
  refine mem_freed h hf fun hfrees hfile => ?_
  exact not_hasMember_of_frees h hfrees ⟨f, hf, rfl, hfile⟩ ⟨f, hf, rfl, hp⟩

theorem claim_root_cases (h : SoundTable allocates reg.families) (hf : f ∈ reg.families)
    (file : FileId) :
    (reg.claim allocates file f.root).registry = reg ∨
      Granting allocates allocates (reg.freed file f.root) f file
        (reg.claim allocates file f.root) := by
  obtain ⟨i, hi⟩ := List.getElem?_of_mem hf
  rcases claim_cases h _ file f.root with ⟨-, -, hsame, -⟩ | ⟨slot, hs, hgrant⟩
  · exact .inl hsame
  · rw [slotOfAnchor?_root h hi] at hs
    cases hs
    exact .inr hgrant

theorem beside_claim_root (h : SoundTable allocates reg.families) (hf : f ∈ reg.families)
    (hg : g ∈ reg.families) (hp : pid ∈ g.members.items) (hother : g.root ≠ f.root) :
    g ∈ (reg.claim allocates file f.root).registry.families := by
  rcases claim_root_cases h hf file with hsame | hgrant
  · rw [hsame]
    exact hg
  · have hfreed : g ∈ (reg.freed file f.root).families := staffed_mem_freed h hg hp
    cases hgrant with
    | granted _ turns => exact turns.beside_claim hfreed hother
    | refused _ _ _ same => rwa [same]

theorem claimed_by_root (h : SoundTable allocates reg.families) (hv : file.isValid = true)
    (hf : f ∈ reg.families) (hlive : f.isLive = true)
    (ha : orExisting (reg.claim allocates file f.root).answer = .ok ()) :
    ∃ g ∈ (reg.claim allocates file f.root).registry.families,
      g.root = f.root ∧ g.policy = f.policy ∧ g.members = f.members ∧ file ∈ g.files.items := by
  obtain ⟨i, hi⟩ := List.getElem?_of_mem hf
  have hs : reg.slotOfAnchor? f.root = some ⟨i, f⟩ := slotOfAnchor?_root h hi
  rcases answer_claim allocates hv (h.sound f hf).root hs with hforbidden | hasked
  · rw [hforbidden] at ha
    cases ha
  cases ht : f.claim allocates file with
  | ok g =>
    rw [ht] at hasked
    rcases claim_cases h _ file f.root with ⟨_, herror, -⟩ | ⟨slot, hs', hgrant⟩
    · rw [hasked] at herror
      cases herror
    rw [hs] at hs'
    cases hs'
    cases hgrant with
    | granted _ turns =>
      have hfreed : f ∈ (reg.freed file f.root).families :=
        staffed_mem_freed h hf (Family.isLive_iff.1 hlive)
      exact turns.claimant ((freed_changes h file f.root).sound h) hfreed
    | refused _ why => rw [ht] at why; cases why
  | error cause =>
    rw [ht] at hasked
    rcases Family.claim_error (h.sound f hf) ht with hdenied | ⟨rfl, -, hheld⟩
    · rw [hasked] at ha
      cases cause <;> simp_all [orExisting, FileOpen.deniesCreation, Except.map]
    · rw [registry_claim_held h hs hheld hasked]
      exact ⟨f, hf, rfl, rfl, rfl, hheld⟩

theorem refused_without_files (h : Reachable allocates limits reg) (hf : f ∈ reg.families)
    (hlive : f.isLive = true) (hempty : f.files.items = [])
    (ha : (reg.claim allocates file f.root).answer = .error cause) :
    (reg.claim allocates file f.root).registry = reg := by
  have hs := h.sound
  have hsized := h.withinLimits.sized
  rcases claim_root_cases hs hf file with hsame | hgrant
  · exact hsame
  cases hgrant with
  | granted hok => rw [ha] at hok; cases hok
  | refused _ why _ same =>
    rw [same, freed, if_neg]
    -- a file that is freed leaves a family of the same capacity, so there would be room for it
    intro hfrees
    obtain ⟨-, holder, -, hholder, -, -⟩ := frees_iff.1 hfrees
    obtain ⟨hi, hfile⟩ := of_slotOfFile? hholder
    have hmem := List.mem_of_getElem? hi
    have hheld : 0 < holder.family.files.count := List.length_pos_of_mem hfile
    have hcapacity : holder.family.files.capacity = f.files.capacity :=
      (hsized _ hmem).files.trans (hsized f hf).files.symm
    have hroom : ¬ f.files.capacity ≤ f.files.count := by
      have hwithin := (hs.sound _ hmem).files.within
      rw [BoundedSet.count, hempty, List.length_nil]
      omega
    rw [Family.claim, hlive, BoundedSet.insert_eq (hs.sound f hf).files.allocated, hempty,
      if_neg (List.not_mem_nil), if_neg hroom] at why
    cases why

end Registry

/-! ## Newcomers -/

structure Family.IsNew (f : Family) (root : Pid) (policy : Policy) : Prop where
  root : f.root = root
  policy : f.policy = policy
  members : f.members.items = [f.root]
  files : f.files.items = []

theorem Family.IsNew.isLive (hf : f.IsNew root policy) : f.isLive = true := by
  rw [isLive_iff, hf.members]
  exact List.mem_singleton_self _

namespace Registry

theorem found_push (h : (reg.found allocates root origin policy).answer = .ok ()) :
    (∀ g ∈ reg.families, g.root ≠ root) ∧
      ∃ f, f.IsNew root policy ∧
        (reg.found allocates root origin policy).registry = reg.push f := by
  obtain ⟨hnew, f, hroot, hpolicy, hpush⟩ := found_eq_ok h
  refine ⟨hnew, f, ?_, hpush⟩
  rcases found_cases reg root origin policy with ⟨-, turns⟩ | ⟨_, herror, -⟩
  · rw [hpush] at turns
    generalize hfamilies : (reg.push f).families = families at turns
    cases turns with
    | @found _ g _ _ _ founded =>
      obtain ⟨-, heq⟩ := Family.founded_eq_ok founded
      obtain rfl : f = g := List.append_cancel_left hfamilies |> List.singleton_inj.1
      refine ⟨hroot, hpolicy, ?_, ?_⟩
      · rw [heq]; rfl
      · rw [heq]; rfl
  · rw [h] at herror
    cases herror

theorem dismiss_push (h : SoundTable allocates (reg.push f).families)
    (hf : f.IsNew root policy) : ((reg.push f).dismiss root).registry = reg := by
  obtain ⟨rfl, -, hmembers, hfiles⟩ := hf
  have hmem : f.root ∈ f.members.items := by rw [hmembers]; exact List.mem_singleton_self _
  have hf : f ∈ (reg.push f).families := List.mem_of_getElem? getElem?_push
  have hspent : (f.dismiss f.root).isSpent = true := by
    cases hp : f.policy <;>
      simp [Family.isSpent, Family.dismiss, BoundedSet.isEmpty, hmembers, hp, hfiles]
  unfold dismiss
  rw [(h.sound f hf).root, h.slotOfMember? getElem?_push hmem]
  show ((reg.push f).settle reg.families.length (f.dismiss f.root)).registry = reg
  rw [settle_push, if_pos hspent]

end Registry

/-! ## What a registration does -/

namespace Request

open Script

/-- How a registration comes to its family, and in which registry. -/
inductive Founding (allocates : Allocator) (reg : Registry) (pid : Pid) (origin : FileId)
    (policy : Policy) : Except Refusal Bool → Registry → Prop
  | new (f : Family) (isNew : f.IsNew pid policy) (fresh : ∀ g ∈ reg.families, g.root ≠ pid)
    (pushed : (reg.found allocates pid origin policy).registry = reg.push f) :
    Founding allocates reg pid origin policy (.ok true) (reg.push f)
  | known (rooted : HasMember reg.families pid pid) :
    Founding allocates reg pid origin policy (.ok false) reg
  | refused (cause : Refusal) : Founding allocates reg pid origin policy (.error cause) reg

inductive Claiming (allocates : Allocator) (base : Registry) (pid : Pid) (origin : FileId) :
    Except Refusal Unit → Registry → Prop
  | none (invalid : origin.isValid = false) : Claiming allocates base pid origin (.ok ()) base
  | asked (valid : origin.isValid = true) :
    Claiming allocates base pid origin (orExisting (base.claim allocates origin pid).answer)
      (base.claim allocates origin pid).registry

/-- The answer of a registration, and the registry that it leaves. -/
inductive Registering (allocates : Allocator) (reg : Registry) (pid : Pid) (origin : FileId)
    (policy : Policy) : Except ControlError Response → Registry → Prop
  | refused (error : ControlError) : Registering allocates reg pid origin policy (.error error) reg
  | registered {isNew : Bool} {base after : Registry}
    (founding : Founding allocates reg pid origin policy (.ok isNew) base)
    (claiming : Claiming allocates base pid origin (.ok ()) after) :
    Registering allocates reg pid origin policy (.ok (.registered pid)) after
  | withdrawn {isNew : Bool} {base after : Registry} (cause : Refusal)
    (founding : Founding allocates reg pid origin policy (.ok isNew) base)
    (claiming : Claiming allocates base pid origin (.error cause) after) :
    Registering allocates reg pid origin policy (.error (.refused cause))
      (if isNew then (after.dismiss pid).registry else after)

theorem foundOnce_ends (h : SoundTable host.allocates reg.families) (hv : pid.isValid = true)
    (origin : FileId) (policy : Policy) :
    Ends host (foundOnce pid origin policy) reg
      (Founding host.allocates reg pid origin policy) := by
  have hrefused {cause : Refusal}
      (ha : (reg.found host.allocates pid origin policy).answer = .error cause) :
      (reg.found host.allocates pid origin policy).registry = reg := by
    rcases Registry.found_cases reg pid origin policy with ⟨hok, -⟩ | ⟨_, -, hsame⟩
    · rw [ha] at hok; cases hok
    · exact hsame
  unfold foundOnce
  refine .bind (.ask ?_)
  show Ends host _ (reg.found host.allocates pid origin policy).registry _
  split
  · rename_i ha
    obtain ⟨hfresh, f, hnew, hpush⟩ := Registry.found_push ha
    have hlast := Founding.new f hnew hfresh hpush
    rw [hpush]
    exact .pure hlast
  · rename_i ha
    rw [hrefused ha]
    refine .bind (.ask ?_)
    show Ends host (Pure.pure (if reg.rootOf pid = pid then _ else _)) reg _
    split
    · rename_i hroot
      exact .pure (.known ((Registry.rootOf_eq_iff h hv).1 hroot))
    · exact .pure (.refused _)
  · rename_i ha
    rw [hrefused ha]
    exact .pure (.refused _)

theorem claimOrigin_ends (pid : Pid) (origin : FileId) :
    Ends host (claimOrigin pid origin) base (Claiming host.allocates base pid origin) := by
  unfold claimOrigin
  split
  · rename_i hv
    exact .bind (.ask (.pure (.asked hv)))
  · rename_i hv
    exact .pure (.none (by simpa using hv))

theorem perform_ends (h : SoundTable host.allocates reg.families) (hv : pid.isValid = true)
    (origin : FileId) (policy : Policy) :
    Ends host (perform pid origin policy) reg
      (Registering host.allocates reg pid origin policy) := by
  unfold perform
  refine .bind ((foundOnce_ends h hv origin policy).mono fun answer base founding => ?_)
  cases answer with
  | error cause =>
    cases founding
    exact .pure (.refused _)
  | ok isNew =>
    refine .bind ((claimOrigin_ends pid origin).mono fun answer after claiming => ?_)
    cases answer with
    | ok => exact .bind (.say (.pure (.registered founding claiming)))
    | error cause =>
      have hlast := Registering.withdrawn cause founding claiming
      cases isNew with
      | true => exact .bind (.discard (.ask (.bind (.say (.pure hlast)))))
      | false => exact .bind (.say (.pure hlast))

theorem registration_ends (h : SoundTable host.allocates reg.families) (pid : Pid)
    (origin : FileId) (policy : Policy) :
    Ends host ((register pid origin policy).dispatch) reg
      (Registering host.allocates reg pid origin policy) := by
  show Ends host (registration pid origin policy) reg _
  unfold registration
  split
  · exact .pure (.refused _)
  · rename_i hv
    refine .bind (.isRunning ?_)
    split
    · exact perform_ends h (by simpa using hv) origin policy
    · exact .pure (.refused _)

/-! ## Registrations that are answered -/

namespace Founding

variable {isNew : Bool}

theorem reachable (h : Registry.Reachable allocates limits reg)
    (hf : Founding allocates reg pid origin policy (.ok isNew) base) :
    Registry.Reachable allocates limits base := by
  cases hf with
  | new f _ _ pushed =>
    rw [← pushed]
    exact h.call (.found pid origin policy)
  | known => exact h

theorem mem (hf : Founding allocates reg pid origin policy (.ok isNew) base)
    (hg : g ∈ reg.families) : g ∈ base.families := by
  cases hf with
  | new => exact List.mem_append_left _ hg
  | known => exact hg

theorem family (h : SoundTable allocates reg.families)
    (hf : Founding allocates reg pid origin policy (.ok isNew) base) :
    ∃ f ∈ base.families, f.root = pid ∧ f.isLive = true ∧
      (f.policy = policy ↔ ∀ g ∈ reg.families, g.root = pid → g.policy = policy) := by
  cases hf with
  | new f isNew fresh =>
    refine ⟨f, List.mem_of_getElem? Registry.getElem?_push, isNew.root, isNew.isLive, ?_⟩
    exact iff_of_true isNew.policy fun g hg hroot => absurd hroot (fresh g hg)
  | known rooted =>
    obtain ⟨f, hf, rfl, hp⟩ := rooted
    refine ⟨f, hf, rfl, Family.isLive_iff.2 hp, ?_⟩
    constructor
    · intro hpolicy g hg hroot
      rwa [h.eq_of_not_apart hg hf fun ha => ha.roots hroot]
    · intro hall
      exact hall f hf rfl

end Founding

/-- What a registration that is answered has led to: the process is the root of a live family which
owns the origin, and no family that had processes has changed but this one. The policy is the one
asked for exactly when no family with another one was there before. -/
theorem registered_root (h : Registry.Reachable host.allocates limits reg)
    (hdone : ((register pid origin policy).dispatch.run host reg).progress =
      .finished (.ok (.registered root))) :
    let after := ((register pid origin policy).dispatch.run host reg).registry
    root = pid ∧
    (∃ f ∈ after.families, f.root = pid ∧ f.isLive = true ∧
      (origin.isValid = true → origin ∈ f.files.items) ∧
      (f.policy = policy ↔ ∀ g ∈ reg.families, g.root = pid → g.policy = policy)) ∧
    ∀ g ∈ reg.families, g.root ≠ pid → (g.isLive = true ∨ g.members.items ≠ []) →
      g ∈ after.families := by
  intro after
  obtain ⟨answer, hanswer, hends⟩ := registration_ends h.sound pid origin policy
  rw [hdone] at hanswer
  cases hanswer
  change Registering host.allocates reg pid origin policy _ after at hends
  generalize after = after at hends
  cases hends with
  | @registered isNew base _ founding claiming =>
    have hbase : SoundTable host.allocates base.families := (founding.reachable h).sound
    obtain ⟨f, hf, rfl, hlive, hpolicy⟩ := founding.family h.sound
    -- what the claim was answered is an index that `cases` has to find free
    generalize hasked : Except.ok () = asked at claiming
    refine ⟨rfl, ?_, fun g hg hother hstaffed => ?_⟩
    · cases claiming with
      | none invalid => exact ⟨f, hf, rfl, hlive, by simp [invalid], hpolicy⟩
      | asked valid =>
        obtain ⟨g, hg, hroot, hsame, hmembers, hfile⟩ :=
          Registry.claimed_by_root hbase valid hf hlive hasked.symm
        refine ⟨g, hg, hroot, ?_, fun _ => hfile, hsame ▸ hpolicy⟩
        rw [Family.isLive, hroot, hmembers]
        exact hlive
    · have hmember : ∃ p, p ∈ g.members.items := by
        rcases hstaffed with hlive | hsome
        · exact ⟨_, Family.isLive_iff.1 hlive⟩
        · exact List.exists_mem_of_ne_nil _ hsome
      obtain ⟨p, hp⟩ := hmember
      cases claiming with
      | none => exact founding.mem hg
      | asked => exact Registry.beside_claim_root hbase hf (founding.mem hg) hp hother

def guarded : List Call :=
  [.found ⟨10⟩ .invalid .protectDroppedFiles, .claim ⟨7⟩ ⟨10⟩, .dismiss ⟨10⟩,
    .found ⟨20⟩ .invalid .noRestriction, .enroll ⟨21⟩ ⟨20⟩, .claim ⟨8⟩ ⟨20⟩]

/-- The origin is taken from the family of 10, which goes, and 30 moves into the first slot. -/
theorem registered_root_reclaiming :
    let host := ({} : Machine).host
    let reg := (Registry.empty {}).execAll host.allocates guarded
    let run := (register ⟨30⟩ ⟨7⟩ .protectDroppedFiles).dispatch.run host reg
    Registry.Reachable host.allocates {} reg ∧
      run.progress = .finished (.ok (.registered ⟨30⟩)) ∧
      run.registry.families.map Family.root = [⟨30⟩, ⟨20⟩] ∧
      (∃ f ∈ run.registry.families, f.root = ⟨30⟩ ∧ f.isLive = true ∧ ⟨7⟩ ∈ f.files.items ∧
        f.policy = .protectDroppedFiles) ∧
      ∀ g ∈ reg.families, g.root = ⟨20⟩ → g ∈ run.registry.families := by
  intro host reg run
  have h : Registry.Reachable host.allocates {} reg := Registry.Reachable.execAll _ .empty
  have hdone : run.progress = .finished (.ok (.registered ⟨30⟩)) := by decide
  obtain ⟨-, ⟨f, hf, hroot, hlive, hfile, hpolicy⟩, hothers⟩ := registered_root h hdone
  have hfirst : ∀ g ∈ reg.families, g.root = ⟨30⟩ → g.policy = .protectDroppedFiles := by decide
  have hstaffed : ∀ g ∈ reg.families, g.root = ⟨20⟩ → g.isLive = true := by decide
  refine ⟨h, hdone, by decide, ⟨f, hf, hroot, hlive, hfile (by decide), hpolicy.2 hfirst⟩, ?_⟩
  intro g hg hroot
  exact hothers g hg (by rw [hroot]; decide) (.inl (hstaffed g hg hroot))

/-- The family of 20 is there already, and it stays without a policy that protects its files. -/
theorem not_registered_policy : ¬ ∀ (host : Host) (limits : Limits) (reg : Registry) (pid : Pid)
    (origin : FileId) (policy : Policy) (root : Pid),
    Registry.Reachable host.allocates limits reg →
    ((register pid origin policy).dispatch.run host reg).progress =
      .finished (.ok (.registered root)) →
    ∃ f ∈ ((register pid origin policy).dispatch.run host reg).registry.families,
      f.root = pid ∧ f.policy = policy := by
  intro hall
  let host := ({} : Machine).host
  have h : Registry.Reachable host.allocates {}
      ((Registry.empty {}).execAll host.allocates guarded) := Registry.Reachable.execAll _ .empty
  have hbad := hall host {} _ ⟨20⟩ .invalid .protectDroppedFiles ⟨20⟩ h (by decide)
  revert hbad
  decide

/-! ## Registrations that are refused -/

theorem error_of_orExisting {answer : Except Refusal Unit} (h : orExisting answer = .error cause) :
    answer = .error cause := by
  cases answer with
  | ok => cases h
  | error other => cases other <;> simp_all [orExisting]

theorem Claiming.unchanged (h : Registry.Reachable allocates limits base) (hf : f ∈ base.families)
    (hnew : f.IsNew pid policy) (hc : Claiming allocates base pid origin (.error cause) after) :
    after = base := by
  generalize hanswer : Except.error cause = answer at hc
  cases hc with
  | none => rfl
  | asked =>
    rw [← hnew.root] at hanswer ⊢
    exact Registry.refused_without_files h hf hnew.isLive hnew.files
      (error_of_orExisting hanswer.symm)

/-- A registration of a process in no family that ends with an error leaves the registry exactly as
it was, with all families in their slots. -/
theorem registration_undone (h : Registry.Reachable host.allocates limits reg)
    (hno : reg.tracks pid = false) :
    let run := (register pid origin policy).dispatch.run host reg
    ∃ answer, run.progress = .finished answer ∧
      ∀ error, answer = .error error → run.registry = reg := by
  intro run
  obtain ⟨answer, hanswer, hends⟩ := registration_ends h.sound pid origin policy
  refine ⟨answer, hanswer, fun error herror => ?_⟩
  change Registering host.allocates reg pid origin policy _ run.registry at hends
  generalize run.registry = after at hends
  subst herror
  cases hends with
  | refused => rfl
  | withdrawn cause founding claiming =>
    have hbase := founding.reachable h
    cases founding with
    | known rooted =>
      rw [h.sound.tracks_iff.2 ⟨pid, rooted⟩] at hno
      cases hno
    | new f isNew =>
      -- the refused claim has moved no slot, so the newcomer is still in the last one
      rw [claiming.unchanged hbase (List.mem_of_getElem? Registry.getElem?_push) isNew, if_pos rfl]
      exact Registry.dismiss_push hbase.sound isNew

/-- The origin belongs to the family of 20. What was founded for 30 is taken back, although it would
protect its files, and the slots are as before. -/
theorem registration_undone_foreign :
    let host := ({} : Machine).host
    let reg := (Registry.empty {}).execAll host.allocates guarded
    let run := (register ⟨30⟩ ⟨8⟩ .protectDroppedFiles).dispatch.run host reg
    Registry.Reachable host.allocates {} reg ∧ reg.tracks ⟨30⟩ = false ∧
      run.progress = .finished (.error (.refused .forbidden)) ∧
      run.log.length = 3 ∧ run.registry = reg := by
  intro host reg run
  have h : Registry.Reachable host.allocates {} reg := Registry.Reachable.execAll _ .empty
  have hno : reg.tracks ⟨30⟩ = false := by decide
  have hdone : run.progress = .finished (.error (.refused .forbidden)) := by decide
  obtain ⟨answer, hanswer, hundone⟩ := registration_undone h hno
  have herror : answer = .error (.refused .forbidden) := by
    rw [hdone] at hanswer
    cases hanswer
    rfl
  exact ⟨h, hno, hdone, by decide, hundone _ herror⟩

end Request

end Containment
