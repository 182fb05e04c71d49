import Containment.Family
import Mathlib.Order.Defs.Unbundled

/-!
# Bounded sets in order

`Sound` holds of every set in the registry: the keys ascend, they are no more than the capacity, and
storage for the capacity can be allocated. `Sound.mem_erase` and `Sound.insert` say what a removal
and an insertion do to the keys of such a set, and `insert_eq` when a key is refused.
-/

namespace Containment

instance : IsStrictTotalOrder Pid (· < ·) where
  irrefl a := UInt32.lt_irrefl a.raw
  trans _ _ _ h h' := UInt32.lt_trans h h'
  trichotomous a b h h' := by
    have : a.raw = b.raw := UInt32.le_antisymm (UInt32.not_lt.1 h') (UInt32.not_lt.1 h)
    cases a; cases b; simp_all

instance : IsStrictTotalOrder FileId (· < ·) where
  irrefl a := UInt64.lt_irrefl a.raw
  trans _ _ _ h h' := UInt64.lt_trans h h'
  trichotomous a b h h' := by
    have : a.raw = b.raw := UInt64.le_antisymm (UInt64.not_lt.1 h') (UInt64.not_lt.1 h)
    cases a; cases b; simp_all

namespace BoundedSet

variable {α : Type} {s t : BoundedSet α} {key x : α} {allocates : Allocator}

structure Sound [LT α] (allocates : Allocator) (s : BoundedSet α) : Prop where
  ascending : s.items.Pairwise (· < ·)
  within : s.count ≤ s.capacity
  allocated : allocates s.capacity = true

theorem isEmpty_iff : s.isEmpty = true ↔ ∀ key, key ∉ s.items := by
  rw [isEmpty, List.isEmpty_iff, List.eq_nil_iff_forall_not_mem]

theorem prepare_eq (h : allocates s.capacity = true) :
    s.prepare allocates = .ok { s with storage := some s.items } := by
  obtain ⟨capacity, storage⟩ := s
  cases storage with
  | none => exact if_pos h
  | some xs => rfl

theorem prepare_cases (s : BoundedSet α) (allocates : Allocator) :
    s.prepare allocates = .ok { s with storage := some s.items } ∨
      s.prepare allocates = .error .uninitialized := by
  obtain ⟨capacity, storage⟩ := s
  cases storage with
  | some xs => exact .inl rfl
  | none =>
    by_cases h : allocates capacity = true
    · exact .inl (if_pos h)
    · exact .inr (if_neg h)

/-! ## Removal -/

section
variable [DecidableEq α]

@[simp] theorem contains_iff : s.contains key = true ↔ key ∈ s.items := by
  simp [contains]

@[simp] theorem capacity_erase : (s.erase key).capacity = s.capacity := by
  unfold erase; split <;> rfl

@[simp] theorem items_erase : (s.erase key).items = s.items.erase key := by
  unfold erase
  split
  · dsimp only
    split
    · rename_i h
      exact (List.isEmpty_iff.1 h).symm
    · rfl
  · rename_i h
    rw [contains_iff] at h
    exact (List.erase_of_not_mem h).symm

theorem erase_of_not_mem (h : key ∉ s.items) : s.erase key = s := by
  rw [erase, if_neg (by simpa using h)]

theorem erase_of_mem (h : key ∈ s.items) :
    s.erase key =
      ⟨s.capacity, if s.items.erase key = [] then none else some (s.items.erase key)⟩ := by
  rw [erase, if_pos (by simpa using h)]
  simp

theorem erase_comm (s : BoundedSet α) (a b : α) : (s.erase a).erase b = (s.erase b).erase a := by
  by_cases hab : a = b
  · rw [hab]
  have hother {t : BoundedSet α} {x y : α} (hxy : x ≠ y) : x ∈ (t.erase y).items ↔ x ∈ t.items := by
    rw [items_erase]
    exact List.mem_erase_of_ne hxy
  by_cases ha : a ∈ s.items
  · by_cases hb : b ∈ s.items
    · rw [erase_of_mem ((hother (Ne.symm hab)).2 hb), erase_of_mem ((hother hab).2 ha)]
      simp only [capacity_erase, items_erase, List.erase_comm a b]
    · rw [erase_of_not_mem hb, erase_of_not_mem fun h => hb ((hother (Ne.symm hab)).1 h)]
  · rw [erase_of_not_mem ha, erase_of_not_mem fun h => ha ((hother hab).1 h)]

variable [LT α]

theorem Sound.erase (hs : s.Sound allocates) : (s.erase key).Sound allocates where
  ascending := by
    rw [items_erase]
    exact hs.ascending.erase key
  within := by
    rw [capacity_erase, count, items_erase]
    exact Nat.le_trans List.length_erase_le hs.within
  allocated := by
    rw [capacity_erase]
    exact hs.allocated

theorem Sound.mem_erase [IsStrictTotalOrder α (· < ·)] (hs : s.Sound allocates) :
    x ∈ (s.erase key).items ↔ x ≠ key ∧ x ∈ s.items := by
  have : s.items.Nodup := hs.ascending.imp fun h => ne_of_irrefl h
  rw [items_erase, this.mem_erase_iff]

end

/-! ## Insertion -/

section
variable [LT α] [DecidableLT α]

theorem pairwise_insertAscending [IsStrictTotalOrder α (· < ·)] {xs : List α}
    (h : xs.Pairwise (· < ·)) (hk : key ∉ xs) : (insertAscending key xs).Pairwise (· < ·) := by
  induction xs with
  | nil => simp [insertAscending]
  | cons y ys ih =>
    obtain ⟨hy, hys⟩ := List.pairwise_cons.1 h
    rw [List.mem_cons, not_or] at hk
    simp only [insertAscending]
    split
    · rename_i hlt
      refine List.pairwise_cons.2 ⟨fun z hz => ?_, h⟩
      rcases List.mem_cons.1 hz with rfl | hz
      · exact hlt
      · exact IsTrans.trans _ _ _ hlt (hy z hz)
    · rename_i hlt
      refine List.pairwise_cons.2 ⟨fun z hz => ?_, ih hys hk.2⟩
      rcases mem_insertAscending.1 hz with rfl | hz
      · by_cases hgt : y < z
        · exact hgt
        · exact absurd (Std.Trichotomous.trichotomous z y hlt hgt) hk.1
      · exact hy z hz

variable [DecidableEq α]

theorem insert_prepared (h : s.prepare allocates = .ok { s with storage := some s.items }) :
    s.insert allocates key =
      if key ∈ s.items then .error .alreadyExists
      else if s.capacity ≤ s.count then .error .capacityExhausted
      else .ok { s with storage := some (insertAscending key s.items) } := by
  unfold insert
  rw [h]
  simp only [bind, Except.bind, contains_iff]
  rfl

theorem insert_eq (h : allocates s.capacity = true) :
    s.insert allocates key =
      if key ∈ s.items then .error .alreadyExists
      else if s.capacity ≤ s.count then .error .capacityExhausted
      else .ok { s with storage := some (insertAscending key s.items) } :=
  insert_prepared (prepare_eq h)

theorem insert_unprepared (h : s.prepare allocates = .error .uninitialized) :
    s.insert allocates key = .error .uninitialized := by
  unfold insert
  rw [h]
  rfl

theorem Sound.insert_cases (hs : s.Sound allocates) (allocates' : Allocator) (key : α) :
    s.insert allocates' key = s.insert allocates key ∨
      s.prepare allocates' = .error .uninitialized ∧
        s.insert allocates' key = .error .uninitialized := by
  rcases s.prepare_cases allocates' with hprepared | hfailed
  · rw [insert_prepared hprepared, insert_eq hs.allocated]
    exact .inl rfl
  · exact .inr ⟨hfailed, insert_unprepared hfailed⟩

theorem Sound.insert [IsStrictTotalOrder α (· < ·)] (hs : s.Sound allocates)
    (h : s.insert allocates key = .ok t) :
    t.Sound allocates ∧ t.capacity = s.capacity ∧ key ∉ s.items ∧
      ∀ x, x ∈ t.items ↔ x = key ∨ x ∈ s.items := by
  rw [insert_eq hs.allocated] at h
  split at h
  · cases h
  rename_i hnew
  split at h
  · cases h
  rename_i hroom
  cases h
  refine ⟨⟨pairwise_insertAscending hs.ascending hnew, ?_, hs.allocated⟩, rfl, hnew, fun x => ?_⟩
  · show (insertAscending key s.items).length ≤ s.capacity
    rw [length_insertAscending]
    exact Nat.lt_of_not_le hroom
  · exact mem_insertAscending

end

end BoundedSet

end Containment
