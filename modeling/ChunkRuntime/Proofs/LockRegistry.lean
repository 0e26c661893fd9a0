import Mathlib
import ChunkRuntime.Proofs.Chain
import ChunkRuntime.Thread.Lock

/-! The registry of thread locks, over every sequence of calls. `Registry` follows the locks
through the calls a program makes: making a lock with or without registering it, freeing a lock
by its number, sweeping the registry, and taking and letting go of a lock; it also counts the
locks registered and the frees that found their lock since the last sweep. A take that waits
for a held lock never returns, so it has no next state.

Locks are numbered in the order they are made, so the registry, pushed newest first and
unlinked by value, holds distinct numbers in decreasing order (`Registry.Inv`). Freeing unlinks
exactly the lock freed, so freeing it again fails; the registry's count is the registrations
less the frees that found their lock; the sweep answers that count and drops the registry's one
reference to each registered lock and none to any other; and a lock taken without waiting is
held until it is let go, whatever else happens (`Registry.Reachable.registered`). -/

namespace ChunkRuntime

namespace Locks

variable (l : Locks)

/-- The registry's references to lock `id`. -/
def refs (id : Nat) : Nat := l.registry.items.count id

@[simp] theorem allocate_held : l.allocate.2.held = l.held.push false := rfl

@[simp] theorem allocate_items : l.allocate.2.registry.items = l.held.size :: l.registry.items := rfl

@[simp] theorem create_held : l.create.2.held = l.held.push false := rfl

@[simp] theorem create_registry : l.create.2.registry = l.registry := rfl

@[simp] theorem release_held (id : Nat) : (l.release id).2.held = l.held := rfl

@[simp] theorem releaseAll_held : l.releaseAll.2.held = l.held := rfl

@[simp] theorem releaseAll_items : l.releaseAll.2.registry.items = [] := rfl

@[simp] theorem unlock_registry (id : Nat) : (l.unlock id).registry = l.registry := rfl

theorem outstanding_eq : l.outstanding = l.registry.items.length := Chain.len_eq_length _

/-- Freeing answers whether the lock is registered and unlinks it. -/
theorem release_eq (id : Nat) :
    (l.release id).1 = decide (id ∈ l.registry.items) ∧
      (l.release id).2.registry.items = l.registry.items.erase id := by
  obtain ⟨hfind, -⟩ := Chain.remove_eq l.registry (· == id)
  refine ⟨?_, Chain.remove_beq_items l.registry id⟩
  simp only [release, hfind]
  cases h : l.registry.items.find? (· == id) with
  | none =>
    have : id ∉ l.registry.items := fun hm => by simpa using List.find?_eq_none.1 h id hm
    simp [this]
  | some a =>
    have ha := List.find?_some h
    have hm := List.mem_of_find?_eq_some h
    rw [beq_iff_eq] at ha
    subst ha
    simp [hm]

theorem contains_iff (id : Nat) : l.contains id = true ↔ id ∈ l.registry.items := by
  simp [contains]

/-! ### Held locks -/

theorem isLocked_push {id : Nat} (h : id < l.held.size) (b : Bool) :
    (l.held.push b).getD id false = l.held.getD id false := by
  simp [Array.getD_eq_getD_getElem?, Array.getElem?_push, h.ne]

theorem lt_of_isLocked {id : Nat} (h : l.isLocked id = true) : id < l.held.size := by
  by_contra hge
  simp [isLocked, Array.getD_eq_getD_getElem?, Nat.not_lt.1 hge] at h

theorem isLocked_set (id j : Nat) (b : Bool) :
    ({ l with held := l.held.set! j b } : Locks).isLocked id =
      if j = id ∧ j < l.held.size then b else l.isLocked id := by
  simp only [isLocked, Array.getD_eq_getD_getElem?, Array.set!_eq_setIfInBounds, Array.getElem?_setIfInBounds]
  by_cases hj : j = id
  · subst hj
    by_cases hlt : j < l.held.size <;> simp [hlt]
  · simp [hj]

/-- Taking a lock that exists without waiting succeeds exactly when it is not held, and leaves
it held either way. -/
theorem acquire_now {id : Nat} (h : id < l.held.size) :
    ∃ l', l.acquire id false = some (!l.isLocked id, l') ∧ l'.isLocked id = true := by
  unfold acquire
  by_cases hl : l.isLocked id = true
  · exact ⟨l, by simp [hl], hl⟩
  · refine ⟨{ l with held := l.held.set! id true }, by simp [hl], ?_⟩
    rw [isLocked_set]
    simp [h]

end Locks

/-- A call on the locks that can change them. -/
inductive LockEvent where
  | allocate
  | create
  | free (id : Nat)
  | sweep
  | acquire (id : Nat) (wait : Bool)
  | release (id : Nat)

/-- The locks, with the locks registered and the frees that found their lock since the last
sweep. -/
structure Registry where
  locks : Locks := {}
  registered : Nat := 0
  freed : Nat := 0

namespace Registry

/-- One call; a take that waits for a held lock never returns. -/
def step (s : Registry) : LockEvent → Option Registry
  | .allocate => some { s with locks := s.locks.allocate.2, registered := s.registered + 1 }
  | .create => some { s with locks := s.locks.create.2 }
  | .free id =>
    some { s with locks := (s.locks.release id).2, freed := s.freed + if (s.locks.release id).1 then 1 else 0 }
  | .sweep => some { locks := s.locks.releaseAll.2 }
  | .acquire id wait => (s.locks.acquire id wait).map fun r => { s with locks := r.2 }
  | .release id => some { s with locks := s.locks.unlock id }

/-- The states reached from no locks at all. -/
inductive Reachable : Registry → Prop
  | init : Reachable {}
  | step {s s' : Registry} (e : LockEvent) : Reachable s → s.step e = some s' → Reachable s'

/-- What every call keeps: registered numbers in decreasing order, each a lock that exists, and
as many registered as registrations less the frees that found their lock. -/
structure Inv (s : Registry) : Prop where
  newest_first : s.locks.registry.items.Pairwise (· > ·)
  exist : ∀ id ∈ s.locks.registry.items, id < s.locks.held.size
  balance : s.locks.outstanding + s.freed = s.registered

theorem Inv.step_inv {s s' : Registry} (hs : s.Inv) {e : LockEvent} (h : s.step e = some s') : s'.Inv := by
  cases e with
  | allocate =>
    cases h
    refine ⟨?_, ?_, ?_⟩
    · -- the new number is above every registered one
      simp only [Locks.allocate_items, List.pairwise_cons]
      exact ⟨fun id hid => hs.exist id hid, hs.newest_first⟩
    · intro id hid
      simp only [Locks.allocate_items, List.mem_cons, Locks.allocate_held, Array.size_push] at hid ⊢
      rcases hid with rfl | hid
      · omega
      · exact Nat.lt_succ_of_lt (hs.exist id hid)
    · have := hs.balance
      simp only [Locks.outstanding_eq, Locks.allocate_items, List.length_cons] at this ⊢
      omega
  | create =>
    cases h
    refine ⟨hs.newest_first, fun id hid => ?_, hs.balance⟩
    simp only [Locks.create_registry, Locks.create_held, Array.size_push] at hid ⊢
    exact Nat.lt_succ_of_lt (hs.exist id hid)
  | free id =>
    cases h
    obtain ⟨hr, hitems⟩ := s.locks.release_eq id
    refine ⟨?_, fun j hj => ?_, ?_⟩
    · rw [hitems]
      exact hs.newest_first.sublist (List.erase_sublist)
    · rw [hitems] at hj
      exact hs.exist j (List.mem_of_mem_erase hj)
    · have := hs.balance
      simp only [Locks.outstanding_eq, hitems, hr] at this ⊢
      by_cases hm : id ∈ s.locks.registry.items
      · rw [List.length_erase_of_mem hm]
        have := List.length_pos_of_mem hm
        simp [hm]
        omega
      · simp [hm, List.erase_of_not_mem hm, this]
  | sweep =>
    cases h
    exact ⟨by simp, by simp, by simp [Locks.outstanding_eq]⟩
  | acquire id wait =>
    obtain ⟨r, hr, rfl⟩ := Option.map_eq_some_iff.1 h
    -- taking a lock changes only whether it is held
    have hreg : r.2.registry = s.locks.registry ∧ r.2.held.size = s.locks.held.size := by
      unfold Locks.acquire at hr
      split_ifs at hr <;> cases hr <;> simp
    refine ⟨?_, fun j hj => ?_, ?_⟩
    · simpa [hreg.1] using hs.newest_first
    · simpa [hreg.1, hreg.2] using hs.exist j (by simpa [hreg.1] using hj)
    · simpa [Locks.outstanding, hreg.1] using hs.balance
  | release id =>
    cases h
    exact ⟨hs.newest_first, fun id hid => by simpa [Locks.unlock] using hs.exist id hid, hs.balance⟩

theorem Reachable.inv {s : Registry} (h : s.Reachable) : s.Inv := by
  induction h with
  | init => exact ⟨List.Pairwise.nil, fun _ h => absurd h List.not_mem_nil, rfl⟩
  | step _ _ hs ih => exact ih.step_inv hs

/-- A held lock stays held through every call but letting it go. -/
theorem step_keeps_held {s s' : Registry} {e : LockEvent} (h : s.step e = some s') {id : Nat}
    (he : e ≠ .release id) (hl : s.locks.isLocked id = true) : s'.locks.isLocked id = true := by
  have hlt := s.locks.lt_of_isLocked hl
  cases e with
  | allocate => cases h; simpa [Locks.isLocked, s.locks.isLocked_push hlt] using hl
  | create => cases h; simpa [Locks.isLocked, s.locks.isLocked_push hlt] using hl
  | free j => cases h; exact hl
  | sweep => cases h; exact hl
  | acquire j wait =>
    obtain ⟨r, hr, rfl⟩ := Option.map_eq_some_iff.1 h
    unfold Locks.acquire at hr
    split_ifs at hr <;> cases hr
    · exact hl
    · -- taking another lock sets only that lock
      rw [Locks.isLocked_set]
      split_ifs
      · rfl
      · exact hl
  | release j =>
    cases h
    have hj : j ≠ id := fun hj => he (hj ▸ rfl)
    rw [Locks.unlock, Locks.isLocked_set, if_neg (fun h => hj h.1)]
    exact hl

/-- What holds of the locks in every state reached by calls: the registry holds distinct locks,
newest first; a free answers whether its lock is registered and unlinks exactly it, so a second
free fails; the registry holds a lock exactly when it is registered; it counts the registrations
less the frees that found their lock since the last sweep; the sweep answers that count, leaves
none, and drops the registry's one reference to each registered lock and none to any other; and
a lock that exists, taken without waiting, is taken exactly when it was not held and is then
held through every call but letting it go. -/
structure Registered (s : Registry) : Prop where
  distinct : s.locks.registry.items.Nodup
  newest_first : s.locks.registry.items.Pairwise (· > ·)
  free : ∀ id, (s.locks.release id).1 = decide (id ∈ s.locks.registry.items) ∧
    (s.locks.release id).2.registry.items = s.locks.registry.items.erase id
  free_twice : ∀ id, ((s.locks.release id).2.release id).1 = false
  contains : ∀ id, s.locks.contains id = true ↔ id ∈ s.locks.registry.items
  outstanding : s.locks.outstanding = s.registered - s.freed
  sweep : s.locks.releaseAll.1 = s.locks.outstanding ∧ s.locks.releaseAll.2.outstanding = 0 ∧
    ∀ id, s.locks.refs id = s.locks.releaseAll.2.refs id + if id ∈ s.locks.registry.items then 1 else 0
  try_acquire : ∀ id, id < s.locks.held.size →
    ∃ l, s.locks.acquire id false = some (!s.locks.isLocked id, l) ∧ l.isLocked id = true
  held_until_release : ∀ id e s', e ≠ .release id → s.step e = some s' → s.locks.isLocked id = true →
    s'.locks.isLocked id = true

theorem Reachable.registered {s : Registry} (h : s.Reachable) : s.Registered := by
  have hs := h.inv
  have hnodup : s.locks.registry.items.Nodup := hs.newest_first.imp ne_of_gt
  refine ⟨hnodup, hs.newest_first, s.locks.release_eq, fun id => ?_, s.locks.contains_iff, ?_, ?_,
    fun id hid => s.locks.acquire_now hid, fun id e s' he hstep hl => step_keeps_held hstep he hl⟩
  · -- the lock is gone after the first free
    rw [((s.locks.release id).2.release_eq id).1, (s.locks.release_eq id).2]
    simpa using hnodup.not_mem_erase
  · have := hs.balance
    omega
  · refine ⟨rfl, rfl, fun id => ?_⟩
    simp only [Locks.refs, Locks.releaseAll_items, List.count_nil, Nat.zero_add]
    exact hnodup.count

/-- Two locks allocated. -/
theorem registered_two_locks :
    Reachable ⟨⟨#[false, false], ⟨[1, 0], 2, rfl⟩⟩, 2, 0⟩ ∧ Registered ⟨⟨#[false, false], ⟨[1, 0], 2, rfl⟩⟩, 2, 0⟩ :=
  have h : Reachable ⟨⟨#[false, false], ⟨[1, 0], 2, rfl⟩⟩, 2, 0⟩ := .step .allocate (.step .allocate .init rfl) rfl
  ⟨h, h.registered⟩

end Registry

end ChunkRuntime
