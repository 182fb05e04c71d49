import Containment.Proofs.Tampering

/-!
# What is left of a request

The process guard takes nothing but tamper rights away, and of those that were asked for all or
none. Which of the two depends on the processes (`ProcessOpen.Foreign`) and not on the rights. So
asking again for what is left changes nothing, and whoever asks for more is left with no less
(`strips_tamper_only`).
-/

namespace Containment

variable {allocates : Allocator} {host : Host} {limits : Limits} {reg : Registry} {own : Pid}
variable {request : ProcessOpen}

/-! ## Masks, bit by bit -/

namespace ProcessAccess

variable {a b : ProcessAccess} {i : Nat}

def Has (a : ProcessAccess) (i : Nat) : Prop := a.bits.getLsbD i = true

theorem has_without : (a.without b).Has i ↔ a.Has i ∧ ¬ b.Has i := by
  unfold Has without
  rw [BitVec.getLsbD_and, BitVec.getLsbD_not, Bool.and_eq_true]
  refine and_congr_right fun ha => ?_
  simp [BitVec.lt_of_getLsbD ha]

end ProcessAccess

/-! ## One decision for all masks -/

namespace ProcessOpen

/-- The source is in a family that holds neither the target nor its parent. -/
def Foreign (families : List Family) (request : ProcessOpen) : Prop :=
  ∃ root, HasMember families root request.source ∧ ¬ HasMember families root request.target ∧
    ¬ HasMember families root request.targetParent

/-- The source is in no family, or its family holds the target, or the target is in none and the
family of the source holds its parent. -/
def Trusted (families : List Family) (request : ProcessOpen) : Prop :=
  (∀ root, ¬ HasMember families root request.source) ∨
    ∃ root, HasMember families root request.source ∧
      (HasMember families root request.target ∨
        (∀ other, ¬ HasMember families other request.target) ∧
          HasMember families root request.targetParent)

end ProcessOpen

/-- A foreign request is stripped of the tamper rights, and every other one is granted as it is. -/
structure AccessDecision.Strips (isForeign : Prop) (asked : ProcessAccess)
    (decision : AccessDecision) : Prop where
  whole : ¬ isForeign → decision = ⟨.allow, asked⟩
  stripped : isForeign → decision.granted = asked.without .tamper ∧
    (decision.verdict = .deny ↔ asked.meets .tamper = true)

namespace AccessDecision.Strips

variable {isForeign : Prop} {asked wider : ProcessAccess} {decision next more : AccessDecision}
variable {i : Nat}

theorem of_granted (h : decision.Strips isForeign asked) (hi : decision.granted.Has i) :
    asked.Has i := by
  by_cases hf : isForeign
  · rw [(h.stripped hf).1] at hi
    exact (ProcessAccess.has_without.1 hi).1
  · rwa [h.whole hf] at hi

theorem granted_of_harmless (h : decision.Strips isForeign asked) (hi : asked.Has i)
    (hharmless : ¬ ProcessAccess.tamper.Has i) : decision.granted.Has i := by
  by_cases hf : isForeign
  · rw [(h.stripped hf).1]
    exact ProcessAccess.has_without.2 ⟨hi, hharmless⟩
  · rwa [h.whole hf]

theorem granted_of_not_foreign (h : decision.Strips isForeign asked) (hf : ¬ isForeign)
    (hi : asked.Has i) : decision.granted.Has i := by
  rwa [h.whole hf]

theorem not_granted_of_foreign (h : decision.Strips isForeign asked) (hf : isForeign)
    (htamper : ProcessAccess.tamper.Has i) : ¬ decision.granted.Has i := by
  rw [(h.stripped hf).1, ProcessAccess.has_without]
  exact fun hi => hi.2 htamper

theorem deny_iff (h : decision.Strips isForeign asked) :
    decision.verdict = .deny ↔ decision.granted ≠ asked := by
  by_cases hf : isForeign
  · obtain ⟨hgranted, hverdict⟩ := h.stripped hf
    rw [hverdict, hgranted]
    constructor
    · intro hmeets heq
      rw [← heq, ProcessAccess.meets_without] at hmeets
      cases hmeets
    · intro hne
      by_contra hmeets
      exact hne (ProcessAccess.without_eq_self (Bool.not_eq_true _ ▸ hmeets))
  · rw [h.whole hf]
    exact iff_of_false nofun (not_not_intro rfl)

theorem again (h : decision.Strips isForeign asked)
    (hnext : next.Strips isForeign decision.granted) : next = ⟨.allow, decision.granted⟩ := by
  by_cases hf : isForeign
  · obtain ⟨hgranted, hverdict⟩ := hnext.stripped hf
    have hnone : decision.granted.meets .tamper = false := by
      rw [(h.stripped hf).1, ProcessAccess.meets_without]
    rw [hnone] at hverdict
    rw [ProcessAccess.without_eq_self hnone] at hgranted
    obtain ⟨verdict, granted⟩ := next
    cases hgranted
    cases verdict with
    | allow => rfl
    | deny => exact absurd (hverdict.1 rfl) nofun
  · exact hnext.whole hf

theorem mono (h : decision.Strips isForeign asked) (hmore : more.Strips isForeign wider)
    (hwider : ∀ i, asked.Has i → wider.Has i) (hi : decision.granted.Has i) :
    more.granted.Has i := by
  by_cases hf : isForeign
  · refine hmore.granted_of_harmless (hwider i (h.of_granted hi)) fun htamper => ?_
    exact h.not_granted_of_foreign hf htamper hi
  · exact hmore.granted_of_not_foreign hf (hwider i (h.of_granted hi))

end AccessDecision.Strips

namespace ProcessOpen

open Script

theorem foreign_iff (h : SoundTable allocates reg.families)
    (hm : HasMember reg.families own request.source) :
    request.Foreign reg.families ↔ ¬ request.Within reg.families := by
  constructor
  · rintro ⟨root, hsource, htarget, hparent⟩ ⟨root', hsource', hheld⟩
    rw [h.root_of_member hsource' hsource] at hheld
    exact hheld.elim htarget hparent
  · intro hout
    exact ⟨own, hm, fun ht => hout ⟨own, hm, .inl ht⟩, fun hp => hout ⟨own, hm, .inr hp⟩⟩

theorem not_foreign_of_trusted (h : SoundTable allocates reg.families)
    (htrusted : request.Trusted reg.families) : ¬ request.Foreign reg.families := by
  rcases htrusted with hnone | ⟨root, hsource, hheld⟩
  · rintro ⟨root, hsource, -, -⟩
    exact hnone root hsource
  · rw [foreign_iff h hsource, not_not]
    exact ⟨root, hsource, hheld.imp_right And.right⟩

theorem decision_strips (h : SoundTable allocates reg.families) (request : ProcessOpen) :
    Ends host request.decision reg fun decision after =>
      after = reg ∧ decision.Strips (request.Foreign reg.families) request.access := by
  by_cases hm : ∃ own, HasMember reg.families own request.source
  · obtain ⟨own, hm⟩ := hm
    refine (decision_ends h hm).mono fun decision after hends => ?_
    obtain ⟨hsame, hinside, houtside⟩ := hends
    rw [← foreign_iff h hm] at houtside
    refine ⟨hsame, ⟨fun hnot => hinside ?_, houtside⟩⟩
    rwa [foreign_iff h hm, not_not] at hnot
  · have htracks : (reg.exec host.allocates (.tracks request.source)).answer = false := by
      rw [← Bool.not_eq_true]
      exact fun hyes => hm (h.tracks_iff.1 hyes)
    unfold decision
    refine .bind (.ask ?_)
    rw [htracks, if_pos (by simp)]
    exact .pure ⟨rfl, fun _ => rfl, fun ⟨root, hsource, _⟩ => absurd ⟨root, hsource⟩ hm⟩

end ProcessOpen

/-- The guard grants a part of what is asked for and keeps back nothing but tamper rights, which it
tells by its verdict. It grants them to a trusted request and not to a foreign one, whoever asks for
what was granted gets it, and whoever asks for more gets no less. -/
theorem strips_tamper_only (h : Registry.Reachable allocates limits reg)
    (request : ProcessOpen) :
    Script.Ends host request.decision reg fun decision after => after = reg ∧
      (∀ i, decision.granted.Has i → request.access.Has i) ∧
      (∀ i, request.access.Has i → ¬ ProcessAccess.tamper.Has i → decision.granted.Has i) ∧
      (decision.verdict = .deny ↔ decision.granted ≠ request.access) ∧
      (request.Trusted reg.families → ∀ i, ProcessAccess.tamper.Has i →
        request.access.Has i → decision.granted.Has i) ∧
      (request.Foreign reg.families → ∀ i, ProcessAccess.tamper.Has i →
        ¬ decision.granted.Has i) ∧
      Script.Ends host { request with access := decision.granted }.decision reg
        (fun next after => after = reg ∧ next = ⟨.allow, decision.granted⟩) ∧
      ∀ wider : ProcessAccess, (∀ i, request.access.Has i → wider.Has i) →
        Script.Ends host { request with access := wider }.decision reg fun more after =>
          after = reg ∧ ∀ i, decision.granted.Has i → more.granted.Has i := by
  have hs := h.sound
  refine (ProcessOpen.decision_strips hs request).mono fun decision after hends => ?_
  obtain ⟨hsame, hstrips⟩ := hends
  refine ⟨hsame, fun i => hstrips.of_granted, fun i => hstrips.granted_of_harmless,
    hstrips.deny_iff, ?_, fun hf i => hstrips.not_granted_of_foreign hf, ?_, ?_⟩
  · intro htrusted i _
    exact hstrips.granted_of_not_foreign (ProcessOpen.not_foreign_of_trusted hs htrusted)
  · refine (ProcessOpen.decision_strips hs _).mono fun next after hnext => ?_
    exact ⟨hnext.1, hstrips.again hnext.2⟩
  · intro wider hwider
    refine (ProcessOpen.decision_strips hs _).mono fun more after hmore => ?_
    exact ⟨hmore.1, fun i => hstrips.mono hmore.2 hwider⟩

theorem strips_tamper_only_foreign :
    let host := ({} : Machine).host
    let request : ProcessOpen := ⟨⟨10⟩, ⟨11⟩, ⟨20⟩, ⟨0xFFFFFFFF⟩⟩
    let left : ProcessOpen := { request with access := ⟨0xFFFFFFD5⟩ }
    Registry.Reachable host.allocates {} neighbours ∧
      (request.decision.run host neighbours).progress = .finished ⟨.deny, left.access⟩ ∧
      Script.Ends host left.decision neighbours fun next after =>
        after = neighbours ∧ next = ⟨.allow, left.access⟩ := by
  intro host request left
  have hdenied : (request.decision.run host neighbours).progress =
      .finished ⟨.deny, left.access⟩ := by
    unfold request
    rfl
  refine ⟨reachable_neighbours, hdenied, ?_⟩
  have hends : Script.Ends host request.decision neighbours _ :=
    strips_tamper_only reachable_neighbours request
  obtain ⟨decision, hend, -, -, -, -, -, -, hnext, -⟩ := hends
  rw [hdenied] at hend
  cases hend
  exact hnext

end Containment
