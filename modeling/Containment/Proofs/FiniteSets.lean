import Containment.Proofs.Sets
import Mathlib.Data.Finset.Card
import Mathlib.Data.List.Sort

/-!
# Bounded sets as finite sets

A bounded set that operations have led to from a new one stands for a finite set of keys, to which
the same operations are applied (`Holds`). What it answers can be told from these keys and from
whether there is storage for them. As its items ascend, the keys alone decide how they are listed,
and a key has one place among them: a search leads there, an insertion puts the key there, and a
removal closes the gap (`refines_finite_set`).
-/

namespace Containment.BoundedSet

variable {α : Type} [LT α] {allocates : Allocator} {room : Nat} {s : BoundedSet α} {key x : α}
variable {items : List α} {keys : Finset α}

/-! ## Places -/

/-- What a search for a key in ascending items finds: where it is, or else where it belongs. -/
inductive Finds (items : List α) (key : α) : Except Nat Nat → Prop
  | here (i : Nat) (there : items[i]? = some key) : Finds items key (.ok i)
  | between (i : Nat) (within : i ≤ items.length) (below : ∀ x ∈ items.take i, x < key)
    (above : ∀ x ∈ items.drop i, key < x) : Finds items key (.error i)

namespace Finds

variable {i : Nat}

theorem mem (h : Finds items key (.ok i)) : key ∈ items := by
  cases h with
  | here _ there => exact List.mem_of_getElem? there

variable [IsStrictTotalOrder α (· < ·)]

theorem not_mem (h : Finds items key (.error i)) : key ∉ items := by
  cases h with
  | between _ _ below above =>
    intro hkey
    rw [← List.take_append_drop i items] at hkey
    rcases List.mem_append.1 hkey with hkey | hkey
    · exact irrefl key (below key hkey)
    · exact irrefl key (above key hkey)

theorem exists_place (h : items.Pairwise (· < ·)) (key : α) : ∃ place, Finds items key place := by
  induction items with
  | nil => exact ⟨_, .between 0 (Nat.le_refl 0) nofun nofun⟩
  | cons y ys ih =>
    obtain ⟨hy, hys⟩ := List.pairwise_cons.1 h
    obtain ⟨place, hplace⟩ := ih hys
    by_cases hlt : y < key
    · cases hplace with
      | here i there => exact ⟨_, .here (i + 1) there⟩
      | between i within below above =>
        refine ⟨_, .between (i + 1) (Nat.succ_le_succ within) ?_ above⟩
        rw [List.take_succ_cons]
        exact List.forall_mem_cons.2 ⟨hlt, below⟩
    by_cases hgt : key < y
    · refine ⟨_, .between 0 (Nat.zero_le _) nofun ?_⟩
      exact List.forall_mem_cons.2 ⟨hgt, fun x hx => IsTrans.trans _ _ _ hgt (hy x hx)⟩
    · have hkey : y = key := Std.Trichotomous.trichotomous y key hlt hgt
      exact ⟨_, .here 0 (congrArg some hkey)⟩

theorem erase [DecidableEq α] (h : Finds items key (.ok i)) (hitems : items.Pairwise (· < ·)) :
    items.erase key = items.eraseIdx i := by
  cases h with
  | here _ there =>
    obtain ⟨hi, hkey⟩ := List.getElem?_eq_some_iff.1 there
    have hnodup : items.Nodup := hitems.imp fun hlt => ne_of_irrefl hlt
    rw [← hkey, hnodup.erase_getElem]

theorem insert [DecidableLT α] (h : Finds items key (.error i)) :
    insertAscending key items = items.insertIdx i key := by
  cases h with
  | between _ within below above =>
    induction items generalizing i with
    | nil =>
      rw [Nat.le_zero.1 within]
      rfl
    | cons y ys ih =>
      cases i with
      | zero => rw [insertAscending, if_pos (above y List.mem_cons_self), List.insertIdx_zero]
      | succ i =>
        rw [List.take_succ_cons, List.forall_mem_cons] at below
        rw [insertAscending, if_neg (asymm below.1), List.insertIdx_succ_cons,
          ih (Nat.le_of_succ_le_succ within) below.2 above]

end Finds

/-! ## Operations -/

inductive Operation (α : Type) where
  | prepare
  | insert (key : α)
  | erase (key : α)
  | release
  deriving DecidableEq

@[reducible] def Operation.Answer : Operation α → Type
  | .prepare | .insert _ => Except Refusal Unit
  | .erase _ => Bool
  | .release => Unit

def attempt (s : BoundedSet α) :
    Except Refusal (BoundedSet α) → Except Refusal Unit × BoundedSet α
  | .ok t => (.ok (), t)
  | .error cause => (.error cause, s)

omit [LT α] in
theorem prepare_bare (h : allocates room = false) :
    ({ capacity := room } : BoundedSet α).prepare allocates = .error .uninitialized := by
  simp [prepare, h]

/-- The set stands for these keys. Without storage for its capacity it stays as it was new. -/
inductive Holds (allocates : Allocator) (room : Nat) : BoundedSet α → Finset α → Prop
  | stored {s : BoundedSet α} {keys : Finset α} (capacity : s.capacity = room)
    (sound : s.Sound allocates) (mem_items : ∀ key, key ∈ s.items ↔ key ∈ keys) :
    Holds allocates room s keys
  | bare (none : allocates room = false) : Holds allocates room { capacity := room } ∅

namespace Holds

theorem new (allocates : Allocator) (room : Nat) :
    Holds allocates room { capacity := room } (∅ : Finset α) := by
  cases h : allocates room with
  | true => exact .stored rfl ⟨.nil, Nat.zero_le _, h⟩ fun key => by simp [BoundedSet.items]
  | false => exact .bare h

theorem capacity (h : Holds allocates room s keys) : s.capacity = room := by
  cases h with
  | stored hcapacity _ _ => exact hcapacity
  | bare _ => rfl

theorem ascending (h : Holds allocates room s keys) : s.items.Pairwise (· < ·) := by
  cases h with
  | stored _ hsound _ => exact hsound.ascending
  | bare _ => exact .nil

theorem within (h : Holds allocates room s keys) : s.count ≤ room := by
  cases h with
  | stored hcapacity hsound _ => exact hcapacity ▸ hsound.within
  | bare _ => exact Nat.zero_le _

theorem mem_items (h : Holds allocates room s keys) : key ∈ s.items ↔ key ∈ keys := by
  cases h with
  | stored _ _ hmem => exact hmem key
  | bare _ => simp [BoundedSet.items]

variable [IsStrictTotalOrder α (· < ·)]

theorem nodup (h : Holds allocates room s keys) : s.items.Nodup :=
  h.ascending.imp fun hlt => ne_of_irrefl hlt

theorem card [DecidableEq α] (h : Holds allocates room s keys) : keys.card = s.count := by
  have hkeys : s.items.toFinset = keys := by
    ext key
    rw [List.mem_toFinset, h.mem_items]
  rw [← hkeys, List.toFinset_card_of_nodup h.nodup, count]

end Holds

section Decidable

variable [DecidableEq α] [DecidableLT α]

def perform (allocates : Allocator) (s : BoundedSet α) :
    (op : Operation α) → op.Answer × BoundedSet α
  | .prepare => s.attempt (s.prepare allocates)
  | .insert key => s.attempt (s.insert allocates key)
  | .erase key => (s.contains key, s.erase key)
  | .release => ((), s.release)

def setAfter (allocates : Allocator) (room : Nat) (ops : List (Operation α)) : BoundedSet α :=
  ops.foldl (fun s op => (s.perform allocates op).2) { capacity := room }

/-- What an operation on a set with this much room does to the keys in it. -/
def keysBy (allocates : Allocator) (room : Nat) (keys : Finset α) : Operation α → Finset α
  | .prepare => keys
  | .insert key => if allocates room ∧ keys.card < room then {key} ∪ keys else keys
  | .erase key => keys.erase key
  | .release => ∅

def keysAfter (allocates : Allocator) (room : Nat) (ops : List (Operation α)) : Finset α :=
  ops.foldl (keysBy allocates room) ∅

/-! ## Step by step -/

inductive Insertion (allocates : Allocator) (room : Nat) (s : BoundedSet α) (keys : Finset α)
    (key : α) : Except Refusal Unit × BoundedSet α → Prop
  | bare (storage : s.storage = none) (none : allocates room = false) :
    Insertion allocates room s keys key (.error .uninitialized, s)
  | present (allocated : allocates room = true) (mem : key ∈ keys) :
    Insertion allocates room s keys key (.error .alreadyExists, s)
  | full (allocated : allocates room = true) (new : key ∉ keys) (card : keys.card = room) :
    Insertion allocates room s keys key (.error .capacityExhausted, s)
  | taken (t : BoundedSet α) (allocated : allocates room = true) (new : key ∉ keys)
    (card : keys.card < room) (capacity : t.capacity = room) (sound : t.Sound allocates)
    (items : t.items = insertAscending key s.items) :
    Insertion allocates room s keys key (.ok (), t)

namespace Holds

theorem preparation (h : Holds allocates room s keys) :
    (s.perform allocates .prepare).1 =
        (if s.storage = none ∧ allocates room = false then .error .uninitialized else .ok ()) ∧
      (s.perform allocates .prepare).2.items = s.items ∧
      Holds allocates room (s.perform allocates .prepare).2 keys := by
  cases h with
  | stored hcapacity hsound hmem =>
    have hall := hsound.allocated
    rw [perform, prepare_eq hall, if_neg (by simp [← hcapacity, hall])]
    exact ⟨rfl, rfl, .stored hcapacity ⟨hsound.ascending, hsound.within, hall⟩ hmem⟩
  | bare hno =>
    rw [perform, prepare_bare hno, if_pos ⟨rfl, hno⟩]
    exact ⟨rfl, rfl, .bare hno⟩

variable [IsStrictTotalOrder α (· < ·)]

theorem insertion (h : Holds allocates room s keys) (key : α) :
    Insertion allocates room s keys key (s.perform allocates (.insert key)) := by
  have hcard := h.card
  have hmem : key ∈ s.items ↔ key ∈ keys := h.mem_items
  cases h with
  | bare hno =>
    rw [perform, BoundedSet.insert, prepare_bare hno]
    exact .bare rfl hno
  | stored hcapacity hsound _ =>
    have hall := hsound.allocated
    have hwithin := hsound.within
    have hins : s.insert allocates key = _ := insert_eq hall
    rw [perform]
    rw [hcapacity] at hall hwithin hins
    by_cases hkey : key ∈ s.items
    · rw [if_pos hkey] at hins
      rw [hins]
      exact .present hall (hmem.1 hkey)
    by_cases hroom : room ≤ s.count
    · rw [if_neg hkey, if_pos hroom] at hins
      rw [hins]
      exact .full hall (hmem.not.1 hkey) (by omega)
    · rw [if_neg hkey, if_neg hroom] at hins
      obtain ⟨ht, -⟩ := hsound.insert hins
      rw [hins]
      exact .taken _ hall (hmem.not.1 hkey) (by omega) rfl ht rfl

theorem insert (h : Holds allocates room s keys) (key : α) :
    Holds allocates room (s.perform allocates (.insert key)).2
      (keysBy allocates room keys (.insert key)) := by
  have hins := h.insertion key
  rw [keysBy]
  generalize s.perform allocates (.insert key) = result at hins
  cases hins with
  | bare _ hno =>
    rw [if_neg (by simp [hno])]
    exact h
  | present _ hkey =>
    rw [Finset.union_eq_right.2 (Finset.singleton_subset_iff.2 hkey), ite_self]
    exact h
  | full _ _ hcard =>
    rw [if_neg (by omega)]
    exact h
  | taken t hall _ hcard hcapacity hsound hitems =>
    rw [if_pos ⟨hall, hcard⟩]
    refine .stored hcapacity hsound fun x => ?_
    rw [hitems, mem_insertAscending, h.mem_items, Finset.mem_union, Finset.mem_singleton]

theorem step (h : Holds allocates room s keys) (op : Operation α) :
    Holds allocates room (s.perform allocates op).2 (keysBy allocates room keys op) := by
  cases op with
  | prepare => exact h.preparation.2.2
  | insert key => exact h.insert key
  | erase key =>
    cases h with
    | bare hno => exact .bare hno
    | stored hcapacity hsound hmem =>
      refine .stored (capacity_erase.trans hcapacity) hsound.erase fun x => ?_
      rw [keysBy, Finset.mem_erase, ← hmem]
      exact hsound.mem_erase
  | release =>
    rw [← h.capacity]
    exact new allocates s.capacity

theorem run (ops : List (Operation α)) (h : Holds allocates room s keys) :
    Holds allocates room (ops.foldl (fun s op => (s.perform allocates op).2) s)
      (ops.foldl (keysBy allocates room) keys) := by
  induction ops generalizing s keys with
  | nil => exact h
  | cons op ops ih => exact ih (h.step op)

end Holds

/-! ## All operations together -/

/-- What a set is to a finite set of keys. -/
structure Refines (allocates : Allocator) (room : Nat) (s : BoundedSet α) (keys : Finset α) :
    Prop where
  capacity : s.capacity = room
  ascending : s.items.Pairwise (· < ·)
  within : s.items.length ≤ room
  mem_items : ∀ key, key ∈ s.items ↔ key ∈ keys
  contains : ∀ key, s.contains key = true ↔ key ∈ keys
  prepared : (s.perform allocates .prepare).1 =
    if s.storage = none ∧ allocates room = false then .error .uninitialized else .ok ()
  prepare_items : (s.perform allocates .prepare).2.items = s.items
  inserted : ∀ key, (s.perform allocates (.insert key)).1 =
    if s.storage = none ∧ allocates room = false then .error .uninitialized
    else if key ∈ keys then .error .alreadyExists
    else if keys.card = room then .error .capacityExhausted
    else .ok ()
  refused_items : ∀ key cause, (s.perform allocates (.insert key)).1 = .error cause →
    (s.perform allocates (.insert key)).2.items = s.items
  insert_items : ∀ key, (s.perform allocates (.insert key)).1 = .ok () →
    ∀ x, x ∈ (s.perform allocates (.insert key)).2.items ↔ x = key ∨ x ∈ s.items
  erased : ∀ key, (s.perform allocates (.erase key)).1 = true ↔ key ∈ keys
  erase_items : ∀ key x, x ∈ (s.perform allocates (.erase key)).2.items ↔ x ≠ key ∧ x ∈ s.items
  /-- A search finds every key or its place, and a key that it finds is in the set. -/
  found : ∀ key, ∃ place, Finds s.items key place
  contains_found : ∀ key place, Finds s.items key place → s.contains key = place.isOk
  inserted_there : ∀ key i, Finds s.items key (.error i) →
    (s.perform allocates (.insert key)).1 = .ok () →
    (s.perform allocates (.insert key)).2.items = s.items.insertIdx i key
  erased_there : ∀ key i, Finds s.items key (.ok i) →
    (s.perform allocates (.erase key)).2.items = s.items.eraseIdx i

variable [IsStrictTotalOrder α (· < ·)]

theorem Holds.refines (h : Holds allocates room s keys) : Refines allocates room s keys := by
  constructor
  case capacity => exact h.capacity
  case ascending => exact h.ascending
  case within => exact h.within
  case mem_items => exact fun key => h.mem_items
  case contains =>
    intro key
    rw [contains_iff, h.mem_items]
  case prepared => exact h.preparation.1
  case prepare_items => exact h.preparation.2.1
  case inserted =>
    intro key
    have hins := h.insertion key
    generalize s.perform allocates (.insert key) = result at hins
    cases hins with
    | bare hstorage hno => rw [if_pos ⟨hstorage, hno⟩]
    | present hall hkey => rw [if_neg (by simp [hall]), if_pos hkey]
    | full hall hkey hcard => rw [if_neg (by simp [hall]), if_neg hkey, if_pos hcard]
    | taken t hall hkey hcard _ _ _ =>
      rw [if_neg (by simp [hall]), if_neg hkey, if_neg (by omega)]
  case refused_items =>
    intro key cause hcause
    have hins := h.insertion key
    generalize s.perform allocates (.insert key) = result at hins hcause
    cases hins with
    | taken t _ _ _ _ _ _ => cases hcause
    | _ => rfl
  case insert_items =>
    intro key hok x
    have hins := h.insertion key
    generalize s.perform allocates (.insert key) = result at hins hok
    cases hins with
    | taken t _ _ _ _ _ hitems =>
      rw [hitems, mem_insertAscending]
    | _ => cases hok
  case erased =>
    intro key
    rw [← h.mem_items]
    exact contains_iff
  case erase_items =>
    intro key x
    rw [perform, items_erase, h.nodup.mem_erase_iff]
  case found => exact fun key => Finds.exists_place h.ascending key
  case contains_found =>
    intro key place hplace
    cases place with
    | ok i => exact contains_iff.2 hplace.mem
    | error i => exact Bool.eq_false_iff.2 fun hkey => hplace.not_mem (contains_iff.1 hkey)
  case inserted_there =>
    intro key i hplace hok
    have hins := h.insertion key
    generalize s.perform allocates (.insert key) = result at hins hok
    cases hins with
    | taken t _ _ _ _ _ hitems => rw [hitems, hplace.insert]
    | _ => cases hok
  case erased_there =>
    intro key i hplace
    rw [perform, items_erase, hplace.erase h.ascending]

/-- Which operations have led to a set matters for nothing but its keys. -/
theorem refines_finite_set (allocates : Allocator) (room : Nat) (ops : List (Operation α)) :
    Refines allocates room (setAfter allocates room ops) (keysAfter allocates room ops) ∧
      ∀ (allocates' : Allocator) (room' : Nat) (ops' : List (Operation α)),
        keysAfter allocates' room' ops' = keysAfter allocates room ops →
        (setAfter allocates' room' ops').items = (setAfter allocates room ops).items := by
  have h (allocates : Allocator) (room : Nat) (ops : List (Operation α)) :
      Holds allocates room (setAfter allocates room ops) (keysAfter allocates room ops) :=
    (Holds.new allocates room).run ops
  refine ⟨(h allocates room ops).refines, fun allocates' room' ops' hkeys => ?_⟩
  have h' := h allocates' room' ops'
  refine h'.ascending.eq_of_mem_iff (h allocates room ops).ascending fun key => ?_
  rw [h'.mem_items, hkeys, (h allocates room ops).mem_items]

theorem refines_finite_set_reordered :
    let first : List (Operation Pid) :=
      [.insert ⟨9⟩, .insert ⟨1⟩, .insert ⟨5⟩, .erase ⟨9⟩, .insert ⟨5⟩]
    let second : List (Operation Pid) := [.prepare, .insert ⟨5⟩, .insert ⟨5⟩, .insert ⟨1⟩]
    IsStrictTotalOrder Pid (· < ·) ∧
      keysAfter (fun _ => true) 4 second = keysAfter (fun _ => true) 2 first ∧
      (setAfter (fun _ => true) 2 first).items = [⟨1⟩, ⟨5⟩] ∧
      Refines (fun _ => true) 2 (setAfter (fun _ => true) 2 first)
        (keysAfter (fun _ => true) 2 first) ∧
      (setAfter (fun _ => true) 4 second).items = (setAfter (fun _ => true) 2 first).items := by
  intro first second
  have hkeys : keysAfter (fun _ => true) 4 second = keysAfter (fun _ => true) 2 first := by decide
  obtain ⟨hrefines, hsame⟩ := refines_finite_set (fun _ => true) 2 first
  exact ⟨inferInstance, hkeys, by decide, hrefines, hsame _ 4 second hkeys⟩

end Decidable

end Containment.BoundedSet
