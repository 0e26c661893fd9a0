import Mathlib
import ChunkRuntime.Chain

/-! A chain is the list of its values, newest first. Every call on a chain is a call on that
list (`Call.onChain_refines`): pushing conses, popping takes the head, `findMut` rewrites the
first value that satisfies the test (`List.replaceF`) and `remove` erases it (`List.eraseP`),
both answering that value (`List.find?`). What carries this is that the walk to a slot after
counting the links before the first match lands on that match, for every list and every test
(`findMut_split`, `remove_split`); the count kept beside the links goes down by exactly one
whenever a value goes, so it is the list's length throughout (`Chain.run_refines`).

Looking a value up by equality, as the allocation tracker does, is the case `(· == a)`. -/

namespace ChunkRuntime.Chain

variable {α : Type}

@[simp] theorem empty_items : (Chain.empty : Chain α).items = [] := rfl

@[simp] theorem push_items (c : Chain α) (a : α) : (c.push a).items = a :: c.items := rfl

attribute [simp] Chain.count_eq

theorem len_eq_length (c : Chain α) : c.len = c.items.length := c.count_eq

theorem isEmpty_iff_len (c : Chain α) : c.isEmpty = true ↔ c.len = 0 := by
  rw [isEmpty, List.isEmpty_iff, len_eq_length, List.length_eq_zero_iff]

/-! ### Walking to a slot -/

/-- The walk over the links of `pre` reaches the slot holding the rest. -/
theorem slot_append (pre s : List α) : slot pre.length (pre ++ s) = some (pre, s) := by
  induction pre with
  | nil => rfl
  | cons a pre ih => simp [slot, ih]

/-! ### The first value that satisfies a test -/

variable {p : α → Bool}

/-- The values before the first match all fail the test. -/
theorem findIdx?_split {pre rest : List α} {a : α} (hpre : ∀ x ∈ pre, p x = false)
    (ha : p a = true) : (pre ++ a :: rest).findIdx? p = some pre.length := by
  have hnone : pre.findIdx? p = none := List.findIdx?_eq_none_iff.2 hpre
  simp [List.findIdx?_append, hnone, List.findIdx?_cons, ha]

/-- Every list either has no value satisfying `p` or splits at the first one that does. -/
theorem forall_or_split (l : List α) (p : α → Bool) : (∀ x ∈ l, p x = false) ∨
    ∃ pre a rest, l = pre ++ a :: rest ∧ (∀ x ∈ pre, p x = false) ∧ p a = true := by
  cases hf : l.find? p with
  | none => exact .inl fun x hx => by simpa using List.find?_eq_none.1 hf x hx
  | some a =>
    obtain ⟨ha, pre, rest, hl, hpre⟩ := List.find?_eq_some_iff_append.1 hf
    exact .inr ⟨pre, a, rest, hl, fun x hx => by simpa using hpre x hx, ha⟩

theorem find?_split {pre rest : List α} {a : α} (hpre : ∀ x ∈ pre, p x = false)
    (ha : p a = true) : (pre ++ a :: rest).find? p = some a := by
  have hnone : pre.find? p = none := List.find?_eq_none.2 fun x hx => by simp [hpre x hx]
  simp [hnone, ha]

theorem eraseP_split {pre rest : List α} {a : α} (hpre : ∀ x ∈ pre, p x = false)
    (ha : p a = true) : (pre ++ a :: rest).eraseP p = pre ++ rest := by
  rw [List.eraseP_append_right _ fun x hx => by simp [hpre x hx], List.eraseP_cons_of_pos ha]

/-- The update `f` of a value that satisfies `p`, and none of any other value. -/
def updateWhere (p : α → Bool) (f : α → α) (x : α) : Option α := if p x then some (f x) else none

theorem replaceF_split {pre rest : List α} {a : α} (hpre : ∀ x ∈ pre, p x = false)
    (ha : p a = true) (f : α → α) :
    (pre ++ a :: rest).replaceF (updateWhere p f) = pre ++ f a :: rest := by
  induction pre with
  | nil => simp [updateWhere, ha]
  | cons x pre ih =>
    have hx : p x = false := hpre x List.mem_cons_self
    simp [updateWhere, hx, ih fun y hy => hpre y (List.mem_cons_of_mem x hy)]

/-! ### Each call as a call on the list -/

/-- Counting the links before the first match, then walking that many, lands on the match. -/
theorem walk_split {c : Chain α} {pre rest : List α} {a : α} (hc : c.items = pre ++ a :: rest)
    (hpre : ∀ x ∈ pre, p x = false) (ha : p a = true) :
    c.items.findIdx? p = some pre.length ∧ slot pre.length c.items = some (pre, a :: rest) :=
  ⟨hc ▸ findIdx?_split hpre ha, hc ▸ slot_append pre (a :: rest)⟩

/-- Updating through the slot reached after the first match's predecessors rewrites exactly that
value and answers it; the count stays. -/
theorem findMut_split {c : Chain α} {pre rest : List α} {a : α} (hc : c.items = pre ++ a :: rest)
    (hpre : ∀ x ∈ pre, p x = false) (ha : p a = true) (f : α → α) :
    (c.findMut p f).1 = some a ∧ (c.findMut p f).2.items = pre ++ f a :: rest := by
  obtain ⟨hk, hs⟩ := walk_split hc hpre ha
  unfold findMut
  split
  · next h => rw [hk] at h; cases h
  · next k h =>
    rw [hk] at h
    cases h
    -- the walk lands on a link, so the early exits are not taken
    split
    · next h' => rw [hs] at h'; cases h'; exact ⟨rfl, rfl⟩
    · next h' => exact absurd hs (h' _ _ _)

theorem findMut_of_forall {c : Chain α} (h : ∀ x ∈ c.items, p x = false) (f : α → α) :
    c.findMut p f = (none, c) := by
  unfold findMut
  rw [List.findIdx?_eq_none_iff.2 h]

/-- Unlinking through the slot reached after the first match's predecessors splices exactly that
value out and answers it; the count goes down by one, from at least one. -/
theorem remove_split {c : Chain α} {pre rest : List α} {a : α} (hc : c.items = pre ++ a :: rest)
    (hpre : ∀ x ∈ pre, p x = false) (ha : p a = true) :
    (c.remove p).1 = some a ∧ (c.remove p).2.items = pre ++ rest ∧ (c.remove p).2.len + 1 = c.len := by
  obtain ⟨hk, hs⟩ := walk_split hc hpre ha
  unfold remove
  split
  · next h => rw [hk] at h; cases h
  · next k h =>
    rw [hk] at h
    cases h
    split
    · next h' =>
      rw [hs] at h'
      cases h'
      refine ⟨rfl, rfl, ?_⟩
      have hlen := c.count_eq
      rw [hc] at hlen
      simp only [len, List.length_append, List.length_cons] at hlen ⊢
      omega
    · next h' => exact absurd hs (h' _ _ _)

theorem remove_of_forall {c : Chain α} (h : ∀ x ∈ c.items, p x = false) : c.remove p = (none, c) := by
  unfold remove
  rw [List.findIdx?_eq_none_iff.2 h]

/-- Popping a chain with links takes the newest; the count goes down by one, from at least one. -/
theorem pop_cons {c : Chain α} {a : α} {rest : List α} (hc : c.items = a :: rest) :
    (c.pop).1 = some a ∧ (c.pop).2.items = rest ∧ (c.pop).2.len + 1 = c.len := by
  unfold pop
  split
  · next h => rw [hc] at h; cases h
  · next h =>
    rw [hc] at h
    cases h
    refine ⟨rfl, rfl, ?_⟩
    have hlen := c.count_eq
    rw [hc] at hlen
    simp only [len, List.length_cons] at hlen ⊢
    omega

theorem pop_nil {c : Chain α} (hc : c.items = []) : c.pop = (none, c) := by
  unfold pop
  split
  · rfl
  · next h => rw [hc] at h; cases h

theorem findMut_eq (c : Chain α) (p : α → Bool) (f : α → α) :
    (c.findMut p f).1 = c.items.find? p ∧
      (c.findMut p f).2.items = c.items.replaceF (updateWhere p f) := by
  rcases forall_or_split c.items p with h | ⟨pre, a, rest, hc, hpre, ha⟩
  · have hnone : ∀ x ∈ c.items, updateWhere p f x = none := fun x hx => by simp [updateWhere, h x hx]
    rw [findMut_of_forall h, List.replaceF_of_forall_none hnone,
      List.find?_eq_none.2 fun x hx => by simp [h x hx]]
    exact ⟨rfl, rfl⟩
  · rw [hc, find?_split hpre ha, replaceF_split hpre ha]
    exact findMut_split hc hpre ha f

theorem remove_eq (c : Chain α) (p : α → Bool) :
    (c.remove p).1 = c.items.find? p ∧ (c.remove p).2.items = c.items.eraseP p := by
  rcases forall_or_split c.items p with h | ⟨pre, a, rest, hc, hpre, ha⟩
  · rw [remove_of_forall h, List.eraseP_of_forall_not fun x hx => by simp [h x hx],
      List.find?_eq_none.2 fun x hx => by simp [h x hx]]
    exact ⟨rfl, rfl⟩
  · obtain ⟨h1, h2, -⟩ := remove_split hc hpre ha
    rw [hc, find?_split hpre ha, eraseP_split hpre ha]
    exact ⟨h1, h2⟩

theorem pop_eq (c : Chain α) : (c.pop).1 = c.items.head? ∧ (c.pop).2.items = c.items.tail := by
  cases hc : c.items with
  | nil => rw [pop_nil hc, hc]; exact ⟨rfl, rfl⟩
  | cons a rest => exact (pop_cons hc).imp_right And.left

/-! ### Runs of calls -/

/-- A call on a chain: push a value, pop, update the newest value that passes a test, or unlink
it. -/
inductive Call (α : Type) where
  | push (a : α)
  | pop
  | findMut (p : α → Bool) (f : α → α)
  | remove (p : α → Bool)

/-- What a call answers and leaves on a chain. -/
def Call.onChain : Call α → Chain α → Option α × Chain α
  | .push a, c => (none, c.push a)
  | .pop, c => c.pop
  | .findMut p f, c => c.findMut p f
  | .remove p, c => c.remove p

/-- What a call answers and leaves on a list of values, newest first: the head, or the first
value passing the test, which an update rewrites and an unlink erases. -/
def Call.onList : Call α → List α → Option α × List α
  | .push a, l => (none, a :: l)
  | .pop, l => (l.head?, l.tail)
  | .findMut p f, l => (l.find? p, l.replaceF (updateWhere p f))
  | .remove p, l => (l.find? p, l.eraseP p)

/-- Calls in order, each on what the one before left, with their answers. -/
def Call.run {σ : Type} (step : Call α → σ → Option α × σ) : List (Call α) → σ → List (Option α) × σ
  | [], s => ([], s)
  | call :: calls, s =>
    let (r, s) := step call s
    let (rs, s) := Call.run step calls s
    (r :: rs, s)

/-- One call on a chain is the call on its list. -/
theorem Call.onChain_refines (call : Call α) (c : Chain α) :
    ((call.onChain c).1, (call.onChain c).2.items) = call.onList c.items := by
  cases call with
  | push a => rfl
  | pop => obtain ⟨h1, h2⟩ := pop_eq c; simp [onChain, onList, h1, h2]
  | findMut p f => obtain ⟨h1, h2⟩ := findMut_eq c p f; simp [onChain, onList, h1, h2]
  | remove p => obtain ⟨h1, h2⟩ := remove_eq c p; simp [onChain, onList, h1, h2]

/-- A run of calls on a chain is the run on its list. -/
theorem Call.run_onChain (calls : List (Call α)) (c : Chain α) :
    ((Call.run Call.onChain calls c).1, (Call.run Call.onChain calls c).2.items) =
      Call.run Call.onList calls c.items := by
  induction calls generalizing c with
  | nil => rfl
  | cons call calls ih =>
    have hstep := call.onChain_refines c
    simp only [Call.run]
    rw [← hstep, ← ih]

/-- From the empty chain, any run of pushes, pops, updates and unlinks with any tests answers
what the same calls answer on the list of values, newest first, and leaves that list as the
chain's values; the chain's count is the list's length, and the chain is empty exactly when the
count is zero. -/
theorem run_refines (calls : List (Call α)) :
    ((Call.run Call.onChain calls Chain.empty).1, (Call.run Call.onChain calls Chain.empty).2.items) =
        Call.run Call.onList calls [] ∧
      (Call.run Call.onChain calls Chain.empty).2.len =
        (Call.run Call.onChain calls Chain.empty).2.items.length ∧
      ((Call.run Call.onChain calls Chain.empty).2.isEmpty = true ↔
        (Call.run Call.onChain calls Chain.empty).2.len = 0) :=
  ⟨Call.run_onChain calls Chain.empty, len_eq_length _, isEmpty_iff_len _⟩

/-! ### Looking a value up by equality -/

variable [BEq α]

theorem remove_beq_items (c : Chain α) (a : α) : (c.remove (· == a)).2.items = c.items.erase a := by
  rw [(remove_eq c _).2, List.erase_eq_eraseP']

variable [LawfulBEq α]

theorem findSet_beq_of_mem {c : Chain α} {a : α} (h : a ∈ c.items) (b : α) :
    ∃ c', c.findSet (· == a) b = (some a, c') ∧ c'.items.Perm (b :: c.items.erase a) := by
  obtain ⟨pre, rest, hc, ha⟩ := List.eq_append_cons_of_mem h
  have hpre : ∀ x ∈ pre, (x == a) = false := fun x hx => by
    rw [beq_eq_false_iff_ne]
    rintro rfl
    exact ha hx
  obtain ⟨h1, h2⟩ := findMut_split hc hpre (beq_self_eq_true a) fun _ => b
  refine ⟨(c.findSet (· == a) b).2, Prod.ext h1 rfl, ?_⟩
  rw [findSet, h2, hc, List.erase_append_right _ ha, List.erase_cons_head]
  exact List.perm_middle

theorem findSet_beq_of_not_mem {c : Chain α} {a : α} (h : a ∉ c.items) (b : α) :
    c.findSet (· == a) b = (none, c) :=
  findMut_of_forall (fun x hx => by rw [beq_eq_false_iff_ne]; rintro rfl; exact h hx) _

end ChunkRuntime.Chain
