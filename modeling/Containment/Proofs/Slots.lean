import Containment.Proofs.Sets
import Containment.Registry.Basic
import Mathlib.Data.List.Perm.Basic

/-!
# Slots and what is beside them

A table is, in some order, the family in one slot and the rest. Writing a family back or collecting
a slot leaves the rest as it is (`perm_set`, `perm_swapRemove`). Only the family in the last slot
moves when another slot is collected (`getElem?_swapRemove`).
-/

namespace Containment

section
variable {α : Type} {items : List α} {x : α} {i j : Nat}

theorem perm_eraseIdx (h : items[i]? = some x) : items.Perm (x :: items.eraseIdx i) := by
  obtain ⟨hi, rfl⟩ := List.getElem?_eq_some_iff.1 h
  exact (List.getElem_cons_eraseIdx_perm hi).symm

theorem perm_set (h : items[i]? = some x) (y : α) :
    (items.set i y).Perm (y :: items.eraseIdx i) := by
  obtain ⟨hi, -⟩ := List.getElem?_eq_some_iff.1 h
  exact List.set_perm_cons_eraseIdx hi y

theorem swapRemove_concat_lt {last : α} (hi : i < items.length) :
    swapRemove (items ++ [last]) i = items.set i last := by
  rw [swapRemove_concat, List.set_append_left _ _ hi, List.dropLast_concat]

theorem perm_swapRemove (h : items[i]? = some x) :
    (swapRemove items i).Perm (items.eraseIdx i) := by
  obtain ⟨hi, -⟩ := List.getElem?_eq_some_iff.1 h
  rcases List.eq_nil_or_concat' items with rfl | ⟨front, last, rfl⟩
  · simp at hi
  rw [List.length_append, List.length_singleton] at hi
  rcases Nat.lt_or_ge i front.length with hlt | hge
  · rw [swapRemove_concat_lt hlt, List.eraseIdx_append_of_lt_length hlt]
    exact (List.set_perm_cons_eraseIdx hlt last).trans (List.perm_append_singleton _ _).symm
  · have : i = front.length := by omega
    subst this
    rw [swapRemove_last, List.eraseIdx_append_of_length_le (Nat.le_refl _)]
    simp

theorem getElem?_swapRemove (hi : i < items.length) (hj : items[j]? = some x) (hij : j ≠ i) :
    (swapRemove items i)[if j = (swapRemove items i).length then i else j]? = some x := by
  rw [length_swapRemove]
  rcases List.eq_nil_or_concat' items with rfl | ⟨front, last, rfl⟩
  · simp at hj
  obtain ⟨hlt, -⟩ := List.getElem?_eq_some_iff.1 hj
  rw [List.length_append, List.length_singleton] at hi hlt
  rw [List.length_append, List.length_singleton, Nat.add_sub_cancel]
  split
  · rename_i hlast
    subst hlast
    rw [List.getElem?_concat_length] at hj
    have : i < front.length := by omega
    rw [swapRemove_concat_lt this, List.getElem?_set_self this, hj]
  · rename_i hlast
    have : j < front.length := by omega
    rw [List.getElem?_append_left this] at hj
    rcases Nat.lt_or_ge i front.length with hi' | hi'
    · rw [swapRemove_concat_lt hi', List.getElem?_set_ne (Ne.symm hij), hj]
    · have : i = front.length := by omega
      rw [this, swapRemove_last, hj]

end

/-! ## Finding slots -/

theorem Slot.isSome_find? {families : List Family} {p : Family → Bool} {f : Family}
    (hf : f ∈ families) (hp : p f = true) : ∃ slot, find? p families = some slot := by
  cases h : find? p families with
  | some slot => exact ⟨slot, rfl⟩
  | none =>
    rw [find?_eq_none.1 h f hf] at hp
    cases hp

namespace Registry

variable {reg : Registry} {slot : Slot} {pid root : Pid} {file : FileId}

theorem slotOfMember?_eq_none :
    reg.slotOfMember? pid = none ↔ ∀ f ∈ reg.families, pid ∉ f.members.items := by
  simp [slotOfMember?, Slot.find?_eq_none, ← Bool.not_eq_true]

theorem slotOfFile?_eq_none :
    reg.slotOfFile? file = none ↔ ∀ f ∈ reg.families, file ∉ f.files.items := by
  simp [slotOfFile?, Slot.find?_eq_none, ← Bool.not_eq_true]

theorem of_slotOfMember? (h : reg.slotOfMember? pid = some slot) :
    reg.families[slot.index]? = some slot.family ∧ pid ∈ slot.family.members.items :=
  ⟨Slot.getElem?_of_find? h, BoundedSet.contains_iff.1 (Slot.satisfies_of_find? h)⟩

theorem of_slotOfFile? (h : reg.slotOfFile? file = some slot) :
    reg.families[slot.index]? = some slot.family ∧ file ∈ slot.family.files.items :=
  ⟨Slot.getElem?_of_find? h, BoundedSet.contains_iff.1 (Slot.satisfies_of_find? h)⟩

theorem of_slotOfRoot? (h : reg.slotOfRoot? root = some slot) :
    reg.families[slot.index]? = some slot.family ∧ slot.family.root = root := by
  unfold slotOfRoot? at h
  split at h
  · exact ⟨Slot.getElem?_of_find? h, beq_iff_eq.1 (Slot.satisfies_of_find? h)⟩
  · cases h

theorem of_slotOfAnchor? (h : reg.slotOfAnchor? pid = some slot) :
    reg.families[slot.index]? = some slot.family := by
  rcases Option.or_eq_some_iff.1 h with h | ⟨-, h⟩
  · exact (of_slotOfRoot? h).1
  · exact (of_slotOfMember? h).1

end Registry

end Containment
