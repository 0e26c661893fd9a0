import Mathlib
import ChunkRuntime.Proofs.Chain
import ChunkRuntime.Thread.Exit

/-! Exit callbacks across threads. `ExitSystem` holds the process-wide key, each thread's chain
and sweeps in progress, and a record of who registered each callback and where it is in its life
(`CallbackState`). Thread actions are atomic steps interleaved in any order; every step keeps
`ExitSystem.Inv`, so every interleaving is `ExitSystem.Sound`. -/

namespace ChunkRuntime

/-! ### The key and one thread's chain -/

namespace ExitKeys

variable {k : ExitKeys}

theorem ensure_of_ne (h : k.current ≠ 0) : k.ensure = (k.current, k) := by
  simp [ensure, h]

theorem ensure_of_eq (h : k.current = 0) : k.ensure = (k.next, ⟨k.next, k.next + 1⟩) := by
  simp [ensure, h]

/-- After making sure of the key, the live key is the one answered. -/
@[simp] theorem ensure_current (k : ExitKeys) : k.ensure.2.current = k.ensure.1 := by
  unfold ensure
  split <;> rfl

/-- Making sure of the key never takes back a fresh one. -/
theorem next_le_ensure (k : ExitKeys) : k.next ≤ k.ensure.2.next := by
  by_cases h0 : k.current = 0
  · rw [ensure_of_eq h0]
    exact Nat.le_succ _
  · rw [ensure_of_ne h0]

@[simp] theorem finalize_current (k : ExitKeys) : k.finalize.current = 0 := rfl

@[simp] theorem finalize_next (k : ExitKeys) : k.finalize.next = k.next := rfl

end ExitKeys

namespace ExitChain

variable {α : Type} {k : ExitKeys} {c : ExitChain α}

@[simp] theorem register_keys (k : ExitKeys) (c : ExitChain α) (f : α) :
    (c.register k f).1 = k.ensure.2 := rfl

@[simp] theorem register_key (k : ExitKeys) (c : ExitChain α) (f : α) :
    (c.register k f).2.key = k.ensure.1 := by
  simp only [register]
  split <;> simp_all

/-- A registration under the chain's own key joins it; one under another key starts it afresh. -/
theorem register_items (k : ExitKeys) (c : ExitChain α) (f : α) :
    (c.register k f).2.callbacks.items =
      f :: if c.key = k.ensure.1 then c.callbacks.items else [] := by
  simp only [register]
  split <;> simp_all

@[simp] theorem registerOn_some (k : ExitKeys) (c : ExitChain α) (f : α) :
    registerOn k (some c) f = ((c.register k f).1, some (c.register k f).2, []) := rfl

@[simp] theorem registerOn_none (k : ExitKeys) (f : α) : registerOn k none f = (k.ensure.2, none, [f]) :=
  rfl

@[simp] theorem runNowOn_none (k : ExitKeys) : runNowOn k (none : Option (ExitChain α)) = ([], none) :=
  rfl

theorem runNowOn_some (k : ExitKeys) (c : ExitChain α) :
    runNowOn k (some c) =
      (if c.key = k.current then c.callbacks.items else [], some { c with callbacks := Chain.empty }) := by
  simp only [runNowOn, takeAll, ne_eq, ite_not]

@[simp] theorem exitOn_none (k : ExitKeys) : exitOn k (none : Option (ExitChain α)) = [] := rfl

theorem exitOn_some (k : ExitKeys) (c : ExitChain α) :
    exitOn k (some c) = if c.key = 0 ∨ c.key ≠ k.current then [] else c.callbacks.items := rfl

end ExitChain

/-! ### The system -/

/-- Where a registered callback is in its life. -/
inductive CallbackState where
  /-- In its thread's chain, registered under the key. -/
  | pending (thread key : Nat)
  /-- Taken by a sweep of its thread, waiting its turn. -/
  | queued (thread : Nat)
  /-- Run, on the thread. -/
  | ran (thread : Nat)
  /-- Met by a sweep that found its key deleted: it never runs. -/
  | dropped
  deriving DecidableEq

/-- The thread a callback belongs to, while it has one. -/
def CallbackState.thread? : CallbackState → Option Nat
  | .pending t _ | .queued t | .ran t => some t
  | .dropped => none

/-- What one thread does: register a callback, run its chain now, delete the key, exit, or go on
with its innermost sweep, running the next callback or ending the sweep when none is left. -/
inductive ExitAction where
  | register (thread : Nat)
  | runNow (thread : Nat)
  | finalize
  | exit (thread : Nat)
  | fire (thread : Nat)

/-- The key, the chains and sweeps, and the record of the callbacks: owner, life, the runs so far. -/
structure ExitSystem where
  keys : ExitKeys
  chains : Nat → Option (ExitChain Nat)
  sweeps : Nat → List (List Nat)
  nextName : Nat
  owner : Nat → Option Nat
  state : Nat → Option CallbackState
  ran : List (Nat × Nat)

namespace ExitSystem

/-- No key yet, every chain empty, no callback. -/
def init : ExitSystem := ⟨{}, fun _ => some {}, fun _ => [], 0, fun _ => none, fun _ => none, []⟩

/-- A sweep of thread `t` that takes `taken`: the thread's pending callbacks that it takes wait
their turn, and the others, stale, are dropped. -/
def sweepStates (st : Nat → Option CallbackState) (t : Nat) (taken : List Nat) :
    Nat → Option CallbackState := fun f =>
  match st f with
  | some (.pending u _) => if u = t then some (if f ∈ taken then .queued t else .dropped) else st f
  | x => x

/-- One action. -/
def step (s : ExitSystem) : ExitAction → ExitSystem
  | .register t =>
    let (keys, chain, now) := ExitChain.registerOn s.keys (s.chains t) s.nextName
    { s with
      keys := keys
      chains := Function.update s.chains t chain
      nextName := s.nextName + 1
      owner := Function.update s.owner s.nextName (some t)
      state := Function.update s.state s.nextName
        (some (if now = [] then .pending t keys.current else .ran t))
      ran := now.map (t, ·) ++ s.ran }
  | .runNow t =>
    let (taken, chain) := ExitChain.runNowOn s.keys (s.chains t)
    { s with
      chains := Function.update s.chains t chain
      sweeps := Function.update s.sweeps t (taken :: s.sweeps t)
      state := sweepStates s.state t taken }
  | .finalize => { s with keys := s.keys.finalize }
  | .exit t =>
    let taken := ExitChain.exitOn s.keys (s.chains t)
    { s with
      chains := Function.update s.chains t none
      sweeps := Function.update s.sweeps t (taken :: s.sweeps t)
      state := sweepStates s.state t taken }
  | .fire t =>
    match s.sweeps t with
    | (f :: rest) :: outer =>
      { s with
        sweeps := Function.update s.sweeps t (rest :: outer)
        state := Function.update s.state f (some (.ran t))
        ran := (t, f) :: s.ran }
    | [] :: outer => { s with sweeps := Function.update s.sweeps t outer }
    | [] => s

/-- Actions one after another. -/
def run (s : ExitSystem) (acts : List ExitAction) : ExitSystem := acts.foldl step s

/-- A callback that will never run: dropped, or pending under a key that is not the live one. -/
def Doomed (s : ExitSystem) (f : Nat) : Prop :=
  s.state f = some .dropped ∨ ∃ t k, s.state f = some (.pending t k) ∧ k ≠ s.keys.current

/-- What the threads can count on after any interleaving. -/
structure Sound (s : ExitSystem) : Prop where
  /-- No callback runs twice, and each runs on the thread that registered it. -/
  ran_once : (s.ran.map Prod.snd).Nodup
  ran_own : ∀ t f, (t, f) ∈ s.ran → s.owner f = some t
  /-- Running a live chain takes exactly its callbacks pending under the live key, newest first. -/
  takes : ∀ t c, s.chains t = some c →
    (∀ f, f ∈ (ExitChain.runNowOn s.keys (some c)).1 ↔ s.state f = some (.pending t s.keys.current)) ∧
    (ExitChain.runNowOn s.keys (some c)).1.Pairwise (· > ·) ∧
    ExitChain.exitOn s.keys (some c) = (ExitChain.runNowOn s.keys (some c)).1
  /-- A sweep in progress holds only callbacks it took when it began, newest first. -/
  sweeps : ∀ t, ∀ L ∈ s.sweeps t, (∀ f ∈ L, s.state f = some (.queued t)) ∧ L.Pairwise (· > ·)
  /-- A callback pending under a deleted key never runs, whatever happens next. -/
  stale : ∀ f, s.Doomed f → ∀ acts t, (t, f) ∉ (s.run acts).ran
  /-- Deleting the key dooms every pending callback. -/
  deleted : ∀ f t k, s.state f = some (.pending t k) → (s.step .finalize).Doomed f
  /-- A callback registered on a live chain waits under the live key; the sweeps stay as they are. -/
  later : ∀ t c, s.chains t = some c →
    (s.step (.register t)).sweeps = s.sweeps ∧
    (s.step (.register t)).state s.nextName = some (.pending t (s.step (.register t)).keys.current)
  /-- A callback registered while its thread tears down runs at once. -/
  teardown : ∀ t, s.chains t = none → (s.step (.register t)).ran = (t, s.nextName) :: s.ran

/-! ### What a sweep does to the callbacks' lives -/

section SweepStates

variable {st : Nat → Option CallbackState} {t : Nat} {taken : List Nat} {f : Nat}

theorem sweepStates_pending {u k : Nat} :
    sweepStates st t taken f = some (.pending u k) ↔ u ≠ t ∧ st f = some (.pending u k) := by
  unfold sweepStates
  rcases hf : st f with _ | (⟨v, j⟩ | v | v | _)
  · simp
  · by_cases hv : v = t <;> by_cases hm : f ∈ taken <;> simp [hv, hm] <;> omega
  all_goals simp

theorem sweepStates_queued {u : Nat} :
    sweepStates st t taken f = some (.queued u) ↔
      st f = some (.queued u) ∨ (u = t ∧ f ∈ taken ∧ ∃ k, st f = some (.pending t k)) := by
  unfold sweepStates
  rcases hf : st f with _ | (⟨v, j⟩ | v | v | _)
  · simp
  · by_cases hv : v = t <;> by_cases hm : f ∈ taken <;> simp [hv, hm, eq_comm]
    -- a pending callback of another thread stays pending
    omega
  all_goals simp

theorem sweepStates_ran {u : Nat} : sweepStates st t taken f = some (.ran u) ↔ st f = some (.ran u) := by
  unfold sweepStates
  rcases hf : st f with _ | (⟨v, j⟩ | v | v | _)
  · simp
  · by_cases hv : v = t <;> by_cases hm : f ∈ taken <;> simp [hv, hm]
  all_goals simp

theorem sweepStates_eq_none : sweepStates st t taken f = none ↔ st f = none := by
  unfold sweepStates
  rcases hf : st f with _ | (⟨v, j⟩ | v | v | _)
  · simp
  · by_cases hv : v = t <;> by_cases hm : f ∈ taken <;> simp [hv, hm]
  all_goals simp

/-- A sweep keeps every callback's thread, or drops the callback. -/
theorem sweepStates_thread {c : CallbackState} {u : Nat} (hc : sweepStates st t taken f = some c)
    (hu : c.thread? = some u) : ∃ c₀, st f = some c₀ ∧ c₀.thread? = some u := by
  unfold sweepStates at hc
  rcases hf : st f with _ | (⟨v, j⟩ | v | v | _) <;> rw [hf] at hc
  · cases hc
  · by_cases hv : v = t <;> by_cases hm : f ∈ taken <;>
      simp only [hv, hm, ↓reduceIte, Option.some.injEq] at hc <;> subst hc <;>
      simp_all [CallbackState.thread?]
  all_goals exact ⟨_, hc, hu⟩

theorem sweepStates_dropped (hf : st f = some .dropped) : sweepStates st t taken f = some .dropped := by
  simp [sweepStates, hf]

/-- A sweep leaves other threads' callbacks alone. -/
theorem sweepStates_of_ne {u k : Nat} (hf : st f = some (.pending u k)) (hu : u ≠ t) :
    sweepStates st t taken f = st f := by
  simp [sweepStates, hf, hu]

/-- A sweep drops its thread's pending callbacks that it does not take. -/
theorem sweepStates_stale {k : Nat} (hf : st f = some (.pending t k)) (hm : f ∉ taken) :
    sweepStates st t taken f = some .dropped := by
  simp [sweepStates, hf, hm]

end SweepStates

/-! ### The invariant -/

/-- What every interleaving keeps. -/
structure Inv (s : ExitSystem) : Prop where
  next_pos : 0 < s.keys.next
  key_lt : s.keys.current = 0 ∨ s.keys.current < s.keys.next
  /-- Every chain's key was made already, and not after the live one. -/
  chain_key : ∀ t c, s.chains t = some c →
    c.key < s.keys.next ∧ (s.keys.current = 0 ∨ c.key ≤ s.keys.current)
  /-- A chain holds exactly its thread's callbacks pending under the chain's key, newest first. -/
  chain_mem : ∀ t c, s.chains t = some c → ∀ f, f ∈ c.callbacks.items ↔ s.state f = some (.pending t c.key)
  chain_sorted : ∀ t c, s.chains t = some c → c.callbacks.items.Pairwise (· > ·)
  /-- A callback is pending only on a live chain, under a key no later than the chain's. -/
  pending_key : ∀ f t k, s.state f = some (.pending t k) → 0 < k ∧ ∃ c, s.chains t = some c ∧ k ≤ c.key
  /-- A thread's sweeps hold exactly its queued callbacks, each once, newest first. -/
  sweep_mem : ∀ t f, f ∈ (s.sweeps t).flatten ↔ s.state f = some (.queued t)
  sweep_nodup : ∀ t, (s.sweeps t).flatten.Nodup
  sweep_sorted : ∀ t, ∀ L ∈ s.sweeps t, L.Pairwise (· > ·)
  /-- The log holds exactly the callbacks run, each once. -/
  ran_mem : ∀ t f, (t, f) ∈ s.ran ↔ s.state f = some (.ran t)
  ran_nodup : (s.ran.map Prod.snd).Nodup
  /-- A callback's thread is the one that registered it. -/
  owner_eq : ∀ f c t, s.state f = some c → c.thread? = some t → s.owner f = some t
  /-- Names not given yet belong to no callback. -/
  fresh : ∀ f, s.nextName ≤ f → s.state f = none

theorem Inv.init : init.Inv where
  next_pos := Nat.one_pos
  key_lt := .inl rfl
  chain_key _ c hc := by
    cases hc
    exact ⟨Nat.one_pos, .inl rfl⟩
  chain_mem _ c hc f := by
    cases hc
    simp [ExitSystem.init]
  chain_sorted _ c hc := by
    cases hc
    exact List.Pairwise.nil
  pending_key _ _ _ hf := nomatch hf
  sweep_mem _ _ := by simp [ExitSystem.init]
  sweep_nodup _ := List.nodup_nil
  sweep_sorted _ _ hL := nomatch hL
  ran_mem _ _ := by simp [ExitSystem.init]
  ran_nodup := List.nodup_nil
  owner_eq _ _ _ hf := nomatch hf
  fresh _ _ := rfl

namespace Inv

variable {s : ExitSystem} (h : s.Inv)
include h

/-- Every name with a life was given already. -/
theorem lt_of_state {f : Nat} {c : CallbackState} (hf : s.state f = some c) : f < s.nextName := by
  by_contra hge
  rw [h.fresh f (Nat.le_of_not_lt hge)] at hf
  cases hf

/-- A sweep of a live chain, now or at exit, takes exactly the thread's callbacks pending under
the live key, newest first. -/
theorem taken {t : Nat} {c : ExitChain Nat} (hc : s.chains t = some c) :
    (∀ f, f ∈ (ExitChain.runNowOn s.keys (some c)).1 ↔ s.state f = some (.pending t s.keys.current)) ∧
    (ExitChain.runNowOn s.keys (some c)).1.Pairwise (· > ·) ∧
    ExitChain.exitOn s.keys (some c) = (ExitChain.runNowOn s.keys (some c)).1 := by
  rw [ExitChain.runNowOn_some, ExitChain.exitOn_some]
  by_cases hk : c.key = s.keys.current
  · -- a live chain runs whole; with no key at all it is empty
    rw [if_pos hk]
    refine ⟨fun f => by rw [h.chain_mem t c hc f, hk], h.chain_sorted t c hc, ?_⟩
    by_cases h0 : c.key = 0
    · rw [if_pos (.inl h0)]
      symm
      refine List.eq_nil_iff_forall_not_mem.2 fun f hf => ?_
      have hpos := (h.pending_key f t c.key ((h.chain_mem t c hc f).1 hf)).1
      omega
    · rw [if_neg (by omega)]
  · -- a stale chain runs nothing, and nothing is pending under the live key
    rw [if_neg hk, if_pos (.inr hk)]
    refine ⟨fun f => ⟨fun hf => absurd hf List.not_mem_nil, fun hf => ?_⟩, List.Pairwise.nil, rfl⟩
    obtain ⟨hpos, d, hd, hle⟩ := h.pending_key f t _ hf
    rw [hc, Option.some.injEq] at hd
    subst hd
    rcases (h.chain_key t c hc).2 with h0 | hle'
    · omega
    · exact absurd (Nat.le_antisymm hle' hle) hk

end Inv

/-! ### One action -/

section Steps

variable {s : ExitSystem} {t : Nat}

theorem step_register_of_some {c : ExitChain Nat} (hc : s.chains t = some c) :
    s.step (.register t) =
      { s with
        keys := s.keys.ensure.2
        chains := Function.update s.chains t (some (c.register s.keys s.nextName).2)
        nextName := s.nextName + 1
        owner := Function.update s.owner s.nextName (some t)
        state := Function.update s.state s.nextName (some (.pending t s.keys.ensure.1)) } := by
  simp [step, hc]

theorem step_register_of_none (hc : s.chains t = none) :
    s.step (.register t) =
      { s with
        keys := s.keys.ensure.2
        nextName := s.nextName + 1
        owner := Function.update s.owner s.nextName (some t)
        state := Function.update s.state s.nextName (some (.ran t))
        ran := (t, s.nextName) :: s.ran } := by
  have hsame : Function.update s.chains t none = s.chains := hc ▸ Function.update_eq_self t s.chains
  simp [step, hc, hsame]

/-- A registration makes sure of the key, whether the thread's chain is live or torn down. -/
@[simp] theorem step_register_keys (t : Nat) : (s.step (.register t)).keys = s.keys.ensure.2 := by
  cases hc : s.chains t with
  | none => rw [step_register_of_none hc]
  | some c => rw [step_register_of_some hc]

/-- A registration gives a life to the new name only. -/
theorem step_register_state_of_ne {f : Nat} (hf : f ≠ s.nextName) :
    (s.step (.register t)).state f = s.state f := by
  cases hc : s.chains t with
  | none => simp [step_register_of_none hc, Function.update_of_ne hf]
  | some c => simp [step_register_of_some hc, Function.update_of_ne hf]

theorem step_runNow (t : Nat) :
    s.step (.runNow t) =
      { s with
        chains := Function.update s.chains t (ExitChain.runNowOn s.keys (s.chains t)).2
        sweeps := Function.update s.sweeps t ((ExitChain.runNowOn s.keys (s.chains t)).1 :: s.sweeps t)
        state := sweepStates s.state t (ExitChain.runNowOn s.keys (s.chains t)).1 } := rfl

theorem step_exit (t : Nat) :
    s.step (.exit t) =
      { s with
        chains := Function.update s.chains t none
        sweeps := Function.update s.sweeps t (ExitChain.exitOn s.keys (s.chains t) :: s.sweeps t)
        state := sweepStates s.state t (ExitChain.exitOn s.keys (s.chains t)) } := rfl

theorem step_fire_of_nil (hs : s.sweeps t = []) : s.step (.fire t) = s := by
  simp only [step, hs]

theorem step_fire_end {outer : List (List Nat)} (hs : s.sweeps t = [] :: outer) :
    s.step (.fire t) = { s with sweeps := Function.update s.sweeps t outer } := by
  simp only [step, hs]

theorem step_fire_next {f : Nat} {rest : List Nat} {outer : List (List Nat)}
    (hs : s.sweeps t = (f :: rest) :: outer) :
    s.step (.fire t) =
      { s with
        sweeps := Function.update s.sweeps t (rest :: outer)
        state := Function.update s.state f (some (.ran t))
        ran := (t, f) :: s.ran } := by
  simp only [step, hs]

/-- Giving one name a new life moves no other name: a life that is neither its old nor its new
one is held by the same names before and after. -/
theorem update_state_iff {st : Nat → Option CallbackState} {f g : Nat} {c x : CallbackState}
    (hf : st f ≠ some x) (hx : c ≠ x) :
    Function.update st f (some c) g = some x ↔ st g = some x := by
  rw [Function.update_apply]
  split_ifs with hg
  · subst hg
    simp [hf, hx]
  · rfl

end Steps

/-! ### Doomed callbacks -/

section Doomed

variable {s s' : ExitSystem} {f : Nat}

/-- A doomed callback stays doomed while its life is untouched and the live key does not come
back to its key. -/
theorem Doomed.of_state (hd : s.Doomed f) (hst : s'.state f = s.state f)
    (hkey : ∀ t k, s.state f = some (.pending t k) → k ≠ s.keys.current → k ≠ s'.keys.current) :
    s'.Doomed f := by
  rcases hd with hd | ⟨t, k, hp, hk⟩
  · exact .inl (hst.trans hd)
  · exact .inr ⟨t, k, hst.trans hp, hkey t k hp hk⟩

/-- A sweep that takes only callbacks pending under the live key drops the doomed ones of its
thread and leaves the others doomed. -/
theorem Doomed.sweep {t : Nat} {taken : List Nat} (hd : s.Doomed f)
    (htaken : ∀ g, g ∈ taken ↔ s.state g = some (.pending t s.keys.current)) :
    sweepStates s.state t taken f = some .dropped ∨
      ∃ u k, sweepStates s.state t taken f = some (.pending u k) ∧ k ≠ s.keys.current := by
  rcases hd with hd | ⟨u, k, hp, hk⟩
  · exact .inl (sweepStates_dropped hd)
  · by_cases hu : u = t
    · subst hu
      refine .inl (sweepStates_stale hp fun hm => hk ?_)
      have hcur := (htaken f).1 hm
      rw [hp, Option.some.injEq, CallbackState.pending.injEq] at hcur
      exact hcur.2
    · exact .inr ⟨u, k, by rw [sweepStates_of_ne hp hu, hp], hk⟩

end Doomed

namespace Inv

variable {s : ExitSystem} (h : s.Inv)
include h

/-! The key a registration reads: the live one, or a fresh one above every chain's. -/

theorem ensure_pos : 0 < s.keys.ensure.1 := by
  by_cases h0 : s.keys.current = 0
  · rw [ExitKeys.ensure_of_eq h0]
    exact h.next_pos
  · rw [ExitKeys.ensure_of_ne h0]
    exact Nat.pos_of_ne_zero h0

theorem ensure_lt : s.keys.ensure.1 < s.keys.ensure.2.next := by
  by_cases h0 : s.keys.current = 0
  · rw [ExitKeys.ensure_of_eq h0]
    exact Nat.lt_succ_self _
  · rw [ExitKeys.ensure_of_ne h0]
    exact h.key_lt.resolve_left h0

theorem key_le_ensure {t : Nat} {c : ExitChain Nat} (hc : s.chains t = some c) :
    c.key ≤ s.keys.ensure.1 := by
  by_cases h0 : s.keys.current = 0
  · rw [ExitKeys.ensure_of_eq h0]
    exact Nat.le_of_lt (h.chain_key t c hc).1
  · rw [ExitKeys.ensure_of_ne h0]
    exact (h.chain_key t c hc).2.resolve_left h0

/-- A name not given yet has no life. -/
theorem state_next : s.state s.nextName = none := h.fresh _ (Nat.le_refl _)

/-! A registration gives the new name its first life and its owner, and touches no other name. -/

theorem named_state_iff {c x : CallbackState} (hx : c ≠ x) (f : Nat) :
    Function.update s.state s.nextName (some c) f = some x ↔ s.state f = some x :=
  update_state_iff (by rw [h.state_next]; nofun) hx

theorem named_owner {c : CallbackState} {t : Nat} (hc : c.thread? = some t) (f : Nat)
    (c' : CallbackState) (u : Nat) (hf : Function.update s.state s.nextName (some c) f = some c')
    (hu : c'.thread? = some u) : Function.update s.owner s.nextName (some t) f = some u := by
  rw [Function.update_apply] at hf ⊢
  split_ifs at hf ⊢ with hfn
  · cases hf
    rw [← hc, hu]
  · exact h.owner_eq f c' u hf hu

theorem named_fresh (c : CallbackState) (f : Nat) (hf : s.nextName + 1 ≤ f) :
    Function.update s.state s.nextName (some c) f = none := by
  rw [Function.update_of_ne (by omega)]
  exact h.fresh f (by omega)

/-! Running a callback that had not run yet keeps the log exact and free of repeats. -/

theorem log_mem {t f : Nat} (hran : ∀ u, (u, f) ∉ s.ran) (u g : Nat) :
    (u, g) ∈ (t, f) :: s.ran ↔ Function.update s.state f (some (.ran t)) g = some (.ran u) := by
  rw [List.mem_cons, Function.update_apply]
  split_ifs with hgf
  · subst hgf
    simp [hran, eq_comm]
  · rw [h.ran_mem u g]
    simp [hgf]

theorem log_nodup {t f : Nat} (hran : ∀ u, (u, f) ∉ s.ran) : (((t, f) :: s.ran).map Prod.snd).Nodup := by
  rw [List.map_cons, List.nodup_cons]
  refine ⟨fun hm => ?_, h.ran_nodup⟩
  obtain ⟨⟨u, g⟩, hug, hg⟩ := List.mem_map.1 hm
  dsimp only at hg
  subst hg
  exact hran u hug

/-- What a registration keeps of a live chain: exactly the thread's callbacks pending under the key
the registration reads, newest first; a stale chain's callbacks are left behind. -/
theorem kept {t : Nat} {c : ExitChain Nat} (hc : s.chains t = some c) :
    (∀ f, f ∈ (if c.key = s.keys.ensure.1 then c.callbacks.items else []) ↔
      s.state f = some (.pending t s.keys.ensure.1)) ∧
    (if c.key = s.keys.ensure.1 then c.callbacks.items else []).Pairwise (· > ·) := by
  split_ifs with hk
  · exact ⟨fun f => by rw [h.chain_mem t c hc f, hk], h.chain_sorted t c hc⟩
  · -- nothing is pending under a key above the chain's
    refine ⟨fun f => ⟨fun hm => absurd hm List.not_mem_nil, fun hp => ?_⟩, List.Pairwise.nil⟩
    obtain ⟨-, d, hd, hkd⟩ := h.pending_key f t _ hp
    rw [hc, Option.some.injEq] at hd
    subst hd
    exact absurd (Nat.le_antisymm (h.key_le_ensure hc) hkd) hk

theorem register_some {t : Nat} {c : ExitChain Nat} (hc : s.chains t = some c) :
    (s.step (.register t)).Inv := by
  rw [step_register_of_some hc]
  refine
    { next_pos := Nat.lt_of_lt_of_le h.next_pos s.keys.next_le_ensure
      key_lt := .inr (by rw [ExitKeys.ensure_current]; exact h.ensure_lt)
      chain_key := ?_
      chain_mem := ?_
      chain_sorted := ?_
      pending_key := ?_
      sweep_mem := fun u f => (h.sweep_mem u f).trans (h.named_state_iff (by nofun) f).symm
      sweep_nodup := h.sweep_nodup
      sweep_sorted := h.sweep_sorted
      ran_mem := fun u f => (h.ran_mem u f).trans (h.named_state_iff (by nofun) f).symm
      ran_nodup := h.ran_nodup
      owner_eq := h.named_owner rfl
      fresh := h.named_fresh _ }
  · intro u d hd
    dsimp only at hd ⊢
    rw [Function.update_apply] at hd
    split_ifs at hd with hu
    · cases hd
      rw [ExitChain.register_key, ExitKeys.ensure_current]
      exact ⟨h.ensure_lt, .inr (Nat.le_refl _)⟩
    · rw [ExitKeys.ensure_current]
      exact ⟨Nat.lt_of_lt_of_le (h.chain_key u d hd).1 s.keys.next_le_ensure, .inr (h.key_le_ensure hd)⟩
  · intro u d hd f
    dsimp only at hd ⊢
    rw [Function.update_apply] at hd
    split_ifs at hd with hu
    · -- the registering thread's chain: the new callback, then what the chain keeps
      subst hu
      cases hd
      rw [ExitChain.register_items, ExitChain.register_key, List.mem_cons, (h.kept hc).1 f,
        Function.update_apply]
      by_cases hf : f = s.nextName
      · simp [hf]
      · simp [hf]
    · exact (h.chain_mem u d hd f).trans
        (h.named_state_iff (fun he => hu (CallbackState.pending.inj he).1.symm) f).symm
  · intro u d hd
    dsimp only at hd ⊢
    rw [Function.update_apply] at hd
    split_ifs at hd with hu
    · subst hu
      cases hd
      rw [ExitChain.register_items]
      -- every callback kept was named before the new one
      exact List.pairwise_cons.2 ⟨fun f hf => h.lt_of_state (((h.kept hc).1 f).1 hf), (h.kept hc).2⟩
    · exact h.chain_sorted u d hd
  · intro f u k hf
    dsimp only at hf ⊢
    rw [Function.update_apply] at hf
    split_ifs at hf with hfn
    · cases hf
      exact ⟨h.ensure_pos, _, Function.update_self .., by rw [ExitChain.register_key]⟩
    · obtain ⟨hk, d, hd, hkd⟩ := h.pending_key f u k hf
      by_cases hu : u = t
      · subst hu
        rw [hc, Option.some.injEq] at hd
        subst hd
        refine ⟨hk, _, Function.update_self .., ?_⟩
        rw [ExitChain.register_key]
        exact Nat.le_trans hkd (h.key_le_ensure hc)
      · exact ⟨hk, d, by rw [Function.update_of_ne hu]; exact hd, hkd⟩

theorem register_none {t : Nat} (hc : s.chains t = none) : (s.step (.register t)).Inv := by
  -- the callback runs at once, and a name not given yet had not run
  have hnew : ∀ u, (u, s.nextName) ∉ s.ran := fun u hm => by
    rw [h.ran_mem, h.state_next] at hm
    cases hm
  rw [step_register_of_none hc]
  refine
    { next_pos := Nat.lt_of_lt_of_le h.next_pos s.keys.next_le_ensure
      key_lt := .inr (by rw [ExitKeys.ensure_current]; exact h.ensure_lt)
      chain_key := fun u d hd => by
        rw [ExitKeys.ensure_current]
        exact ⟨Nat.lt_of_lt_of_le (h.chain_key u d hd).1 s.keys.next_le_ensure, .inr (h.key_le_ensure hd)⟩
      chain_mem := fun u d hd f => (h.chain_mem u d hd f).trans (h.named_state_iff (by nofun) f).symm
      chain_sorted := h.chain_sorted
      pending_key := fun f u k hf => h.pending_key f u k ((h.named_state_iff (by nofun) f).1 hf)
      sweep_mem := fun u f => (h.sweep_mem u f).trans (h.named_state_iff (by nofun) f).symm
      sweep_nodup := h.sweep_nodup
      sweep_sorted := h.sweep_sorted
      ran_mem := h.log_mem hnew
      ran_nodup := h.log_nodup hnew
      owner_eq := h.named_owner rfl
      fresh := h.named_fresh _ }

/-- What running a thread's chain takes, live or torn down: its callbacks pending under the live
key, newest first, and the same at exit. -/
theorem swept (t : Nat) :
    (∀ f, f ∈ (ExitChain.runNowOn s.keys (s.chains t)).1 ↔ s.state f = some (.pending t s.keys.current)) ∧
    (ExitChain.runNowOn s.keys (s.chains t)).1.Pairwise (· > ·) ∧
    ExitChain.exitOn s.keys (s.chains t) = (ExitChain.runNowOn s.keys (s.chains t)).1 := by
  cases hc : s.chains t with
  | some c => exact h.taken hc
  | none =>
    -- a torn-down thread has nothing pending
    refine ⟨fun f => ⟨fun hf => absurd hf List.not_mem_nil, fun hf => ?_⟩, List.Pairwise.nil, rfl⟩
    obtain ⟨-, d, hd, -⟩ := h.pending_key f t _ hf
    rw [hc] at hd
    cases hd

/-- A sweep of thread `t` that takes exactly its callbacks pending under the live key, newest
first, and leaves its chain emptied under the same key or torn down. -/
theorem sweep {t : Nat} {taken : List Nat} {chain : Option (ExitChain Nat)}
    (htaken : ∀ f, f ∈ taken ↔ s.state f = some (.pending t s.keys.current))
    (hsorted : taken.Pairwise (· > ·))
    (hchain : chain = none ∨ ∃ c, s.chains t = some c ∧ chain = some { c with callbacks := Chain.empty }) :
    Inv { s with
      chains := Function.update s.chains t chain
      sweeps := Function.update s.sweeps t (taken :: s.sweeps t)
      state := sweepStates s.state t taken } := by
  -- what is left of the thread's chain is empty, under a key the chain had already
  have hleft : ∀ d, chain = some d → d.callbacks.items = [] ∧ ∃ c, s.chains t = some c ∧ d.key = c.key := by
    intro d hd
    rcases hchain with hn | ⟨c, hc, hcd⟩
    · rw [hn] at hd
      cases hd
    · rw [hcd, Option.some.injEq] at hd
      subst hd
      exact ⟨rfl, c, hc, rfl⟩
  refine
    { next_pos := h.next_pos
      key_lt := h.key_lt
      chain_key := ?_
      chain_mem := ?_
      chain_sorted := ?_
      pending_key := ?_
      sweep_mem := ?_
      sweep_nodup := ?_
      sweep_sorted := ?_
      ran_mem := fun u f => (h.ran_mem u f).trans sweepStates_ran.symm
      ran_nodup := h.ran_nodup
      owner_eq := ?_
      fresh := fun f hf => sweepStates_eq_none.2 (h.fresh f hf) }
  · intro u d hd
    dsimp only at hd ⊢
    rw [Function.update_apply] at hd
    split_ifs at hd with hu
    · obtain ⟨-, c, hc, hkey⟩ := hleft d hd
      rw [hkey]
      exact h.chain_key t c hc
    · exact h.chain_key u d hd
  · intro u d hd f
    dsimp only at hd ⊢
    rw [Function.update_apply] at hd
    rw [sweepStates_pending]
    split_ifs at hd with hu
    · rw [(hleft d hd).1]
      simp [hu]
    · rw [h.chain_mem u d hd f]
      exact ⟨fun hp => ⟨hu, hp⟩, And.right⟩
  · intro u d hd
    dsimp only at hd
    rw [Function.update_apply] at hd
    split_ifs at hd with hu
    · rw [(hleft d hd).1]
      exact List.Pairwise.nil
    · exact h.chain_sorted u d hd
  · intro f u k hf
    dsimp only at hf ⊢
    obtain ⟨hu, hf⟩ := sweepStates_pending.1 hf
    obtain ⟨hk, d, hd, hkd⟩ := h.pending_key f u k hf
    exact ⟨hk, d, by rw [Function.update_of_ne hu]; exact hd, hkd⟩
  · intro u f
    dsimp only
    rw [sweepStates_queued, Function.update_apply]
    split_ifs with hu
    · -- the new sweep goes on top of the thread's others, and what it takes waits its turn
      rw [hu, List.flatten_cons, List.mem_append, h.sweep_mem t f, htaken]
      constructor
      · rintro (hp | hq)
        · exact .inr ⟨rfl, hp, _, hp⟩
        · exact .inl hq
      · rintro (hq | ⟨-, hp, -⟩)
        · exact .inr hq
        · exact .inl hp
    · rw [h.sweep_mem u f, or_iff_left fun hq => hu hq.1]
  · intro u
    dsimp only
    rw [Function.update_apply]
    split_ifs with hu
    · -- what the sweep takes is pending, what the others hold is queued
      rw [List.flatten_cons, List.nodup_append]
      refine ⟨hsorted.imp fun hfg => Nat.ne_of_gt hfg, h.sweep_nodup t, fun f hf g hg hfg => ?_⟩
      subst hfg
      rw [h.sweep_mem t f, (htaken f).1 hf] at hg
      cases hg
    · exact h.sweep_nodup u
  · intro u L hL
    dsimp only at hL
    rw [Function.update_apply] at hL
    split_ifs at hL with hu
    · rcases List.mem_cons.1 hL with rfl | hL
      · exact hsorted
      · exact h.sweep_sorted t L hL
    · exact h.sweep_sorted u L hL
  · intro f c u hf hu
    obtain ⟨c₀, hf₀, hu₀⟩ := sweepStates_thread hf hu
    exact h.owner_eq f c₀ u hf₀ hu₀

theorem runNow (t : Nat) : (s.step (.runNow t)).Inv := by
  obtain ⟨htaken, hsorted, -⟩ := h.swept t
  rw [step_runNow]
  refine h.sweep htaken hsorted ?_
  cases hc : s.chains t with
  | none => exact .inl rfl
  | some c => exact .inr ⟨c, rfl, by rw [ExitChain.runNowOn_some]⟩

theorem exit (t : Nat) : (s.step (.exit t)).Inv := by
  obtain ⟨htaken, hsorted, hexit⟩ := h.swept t
  rw [step_exit, hexit]
  exact h.sweep htaken hsorted (.inl rfl)

/-- Deleting the key keeps every chain's key below the fresh ones. -/
theorem finalize : (s.step .finalize).Inv :=
  { h with
    key_lt := .inl rfl
    chain_key := fun t c hc => ⟨(h.chain_key t c hc).1, .inl rfl⟩ }

/-- Ending an empty sweep. -/
theorem fire_end {t : Nat} {outer : List (List Nat)} (hs : s.sweeps t = [] :: outer) :
    (s.step (.fire t)).Inv := by
  rw [step_fire_end hs]
  have hflat : ∀ u, (Function.update s.sweeps t outer u).flatten = (s.sweeps u).flatten := by
    intro u
    rw [Function.update_apply]
    split_ifs with hu
    · rw [hu, hs, List.flatten_cons, List.nil_append]
    · rfl
  have hsub : ∀ u, ∀ L ∈ Function.update s.sweeps t outer u, L ∈ s.sweeps u := by
    intro u L hL
    rw [Function.update_apply] at hL
    split_ifs at hL with hu
    · rw [hu, hs]
      exact List.mem_cons_of_mem _ hL
    · exact hL
  exact
    { h with
      sweep_mem := fun u f => by
        dsimp only
        rw [hflat]
        exact h.sweep_mem u f
      sweep_nodup := fun u => by
        dsimp only
        rw [hflat]
        exact h.sweep_nodup u
      sweep_sorted := fun u L hL => h.sweep_sorted u L (hsub u L hL) }

/-- Running the next callback of a sweep: it was queued, so it had not run. -/
theorem fire_next {t f : Nat} {rest : List Nat} {outer : List (List Nat)}
    (hs : s.sweeps t = (f :: rest) :: outer) : (s.step (.fire t)).Inv := by
  have hq : s.state f = some (.queued t) := (h.sweep_mem t f).1 (by simp [hs])
  have hnd : f ∉ rest ++ outer.flatten ∧ (rest ++ outer.flatten).Nodup := by
    have hnd := h.sweep_nodup t
    rwa [hs, List.flatten_cons, List.cons_append, List.nodup_cons] at hnd
  have hran : ∀ u, (u, f) ∉ s.ran := fun u hm => by
    rw [h.ran_mem, hq] at hm
    cases hm
  have hfn : f < s.nextName := h.lt_of_state hq
  rw [step_fire_next hs]
  refine
    { next_pos := h.next_pos
      key_lt := h.key_lt
      chain_key := h.chain_key
      chain_mem := fun u d hd g =>
        (h.chain_mem u d hd g).trans (update_state_iff (by rw [hq]; nofun) (by nofun)).symm
      chain_sorted := h.chain_sorted
      pending_key := fun g u k hg =>
        h.pending_key g u k ((update_state_iff (by rw [hq]; nofun) (by nofun)).1 hg)
      sweep_mem := ?_
      sweep_nodup := ?_
      sweep_sorted := ?_
      ran_mem := h.log_mem hran
      ran_nodup := h.log_nodup hran
      owner_eq := ?_
      fresh := fun g hg => by
        dsimp only at hg ⊢
        rw [Function.update_of_ne (by omega)]
        exact h.fresh g hg }
  · intro u g
    dsimp only
    by_cases hgf : g = f
    · -- the callback run is in no sweep any more
      subst hgf
      simp only [Function.update_self, Option.some.injEq, reduceCtorEq, iff_false]
      rw [Function.update_apply]
      split_ifs with hu
      · rw [List.flatten_cons]
        exact hnd.1
      · rw [h.sweep_mem u g, hq]
        simpa using Ne.symm hu
    · rw [Function.update_of_ne hgf, ← h.sweep_mem u g, Function.update_apply]
      split_ifs with hu
      · rw [hu, hs]
        simp [hgf]
      · rfl
  · intro u
    dsimp only
    rw [Function.update_apply]
    split_ifs with hu
    · rw [List.flatten_cons]
      exact hnd.2
    · exact h.sweep_nodup u
  · intro u L hL
    dsimp only at hL
    rw [Function.update_apply] at hL
    split_ifs at hL with hu
    · have hhead := h.sweep_sorted t (f :: rest) (by simp [hs])
      rcases List.mem_cons.1 hL with rfl | hL
      · exact hhead.of_cons
      · exact h.sweep_sorted t L (by simp [hs, hL])
    · exact h.sweep_sorted u L hL
  · intro g c u hg hu
    dsimp only at hg ⊢
    rw [Function.update_apply] at hg
    split_ifs at hg with hgf
    · -- the callback run is the one its thread queued
      cases hg
      cases hu
      rw [hgf]
      exact h.owner_eq f _ t hq rfl
    · exact h.owner_eq g c u hg hu

theorem fire (t : Nat) : (s.step (.fire t)).Inv := by
  cases hs : s.sweeps t with
  | nil =>
    rw [step_fire_of_nil hs]
    exact h
  | cons L outer =>
    cases L with
    | nil => exact h.fire_end hs
    | cons f rest => exact h.fire_next hs

/-- Every action keeps the invariant. -/
theorem step : ∀ a, (s.step a).Inv
  | .register t => by
    cases hc : s.chains t with
    | none => exact h.register_none hc
    | some c => exact h.register_some hc
  | .runNow t => h.runNow t
  | .finalize => h.finalize
  | .exit t => h.exit t
  | .fire t => h.fire t

/-- Every interleaving keeps the invariant. -/
theorem run (acts : List ExitAction) : (s.run acts).Inv := by
  induction acts generalizing s with
  | nil => exact h
  | cons a acts ih => exact ih (h.step a)

/-- A registration reads the live key, or a fresh one above every pending callback's. -/
theorem pending_ne_ensure {f t k : Nat} (hf : s.state f = some (.pending t k)) (hk : k ≠ s.keys.current) :
    k ≠ s.keys.ensure.1 := by
  by_cases h0 : s.keys.current = 0
  · obtain ⟨-, c, hc, hkc⟩ := h.pending_key f t k hf
    rw [ExitKeys.ensure_of_eq h0]
    exact Nat.ne_of_lt (Nat.lt_of_le_of_lt hkc (h.chain_key t c hc).1)
  · rwa [ExitKeys.ensure_of_ne h0]

/-- No action brings back a deleted key or a dropped callback. -/
theorem doomed_step {f : Nat} (hd : s.Doomed f) : ∀ a, (s.step a).Doomed f
  | .register t => by
    -- a doomed callback has a life, so it is not the name the registration gives
    have hfn : f ≠ s.nextName := by
      rcases hd with hd | ⟨_, _, hd, _⟩ <;> exact Nat.ne_of_lt (h.lt_of_state hd)
    refine hd.of_state (step_register_state_of_ne hfn) fun u k hp hk => ?_
    rw [step_register_keys, ExitKeys.ensure_current]
    exact h.pending_ne_ensure hp hk
  | .runNow t => by
    rw [step_runNow]
    exact hd.sweep (h.swept t).1
  | .finalize => hd.of_state rfl fun u k hp _ => Nat.pos_iff_ne_zero.1 (h.pending_key f u k hp).1
  | .exit t => by
    obtain ⟨htaken, -, hexit⟩ := h.swept t
    rw [step_exit, hexit]
    exact hd.sweep htaken
  | .fire t => by
    cases hs : s.sweeps t with
    | nil => rwa [step_fire_of_nil hs]
    | cons L outer =>
      cases L with
      | nil => rwa [step_fire_end hs]
      | cons g rest =>
        -- the callback run was queued, so it is not the doomed one
        have hq : s.state g = some (.queued t) := (h.sweep_mem t g).1 (by simp [hs])
        have hfg : f ≠ g := by
          rintro rfl
          rcases hd with hd | ⟨_, _, hd, _⟩ <;> rw [hd] at hq <;> cases hq
        rw [step_fire_next hs]
        exact hd.of_state (Function.update_of_ne hfg _ _) fun _ _ _ hk => hk

theorem doomed_run {f : Nat} (hd : s.Doomed f) (acts : List ExitAction) : (s.run acts).Doomed f := by
  induction acts generalizing s with
  | nil => exact hd
  | cons a acts ih => exact ih (h.step a) (h.doomed_step hd a)

/-- A doomed callback has not run. -/
theorem not_ran {f : Nat} (hd : s.Doomed f) (t : Nat) : (t, f) ∉ s.ran := fun hm => by
  rw [h.ran_mem] at hm
  rcases hd with hd | ⟨_, _, hd, _⟩ <;> rw [hd] at hm <;> cases hm

theorem toSound : s.Sound where
  ran_once := h.ran_nodup
  ran_own t f hm := h.owner_eq f _ t ((h.ran_mem t f).1 hm) rfl
  takes _ _ hc := h.taken hc
  sweeps t L hL := ⟨fun f hf => (h.sweep_mem t f).1 (List.mem_flatten.2 ⟨L, hL, hf⟩), h.sweep_sorted t L hL⟩
  stale f hd acts t := (h.run acts).not_ran (h.doomed_run hd acts) t
  deleted f t k hf := .inr ⟨t, k, hf, Nat.pos_iff_ne_zero.1 (h.pending_key f t k hf).1⟩
  later t c hc := by
    rw [step_register_of_some hc]
    exact ⟨rfl, by simp⟩
  teardown t hc := by rw [step_register_of_none hc]

end Inv

/-- Whatever the threads do, in whatever order, the exit callbacks keep their contract. -/
theorem run_sound (acts : List ExitAction) : (init.run acts).Sound := (Inv.init.run acts).toSound

/-- A callback registered before the key is deleted never runs; one registered after, under the
fresh key, runs at the next sweep. -/
example : (init.run [.register 0, .finalize, .register 0, .runNow 0, .fire 0, .fire 0]).ran = [(0, 1)] := by
  decide

end ExitSystem

end ChunkRuntime
