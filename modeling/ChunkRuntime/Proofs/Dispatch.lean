import ChunkRuntime.Thread.RunLoop

/-! How a run loop dispatches completions. `Dispatch` follows a loop through the things that can
happen to it: tasks added and removed, completions sent, the loop taking the next completion
and a running task returning, and it records every completion sent and every completion taken
with the task it ran.

The loop's queue is a channel: the completions taken, followed by those still queued, are the
completions sent, so each is taken at most once and in the order sent. A completion names a
slot, not a task: it runs whatever task holds that slot when it is taken, and that task leaves
its slot when taken and goes back into it when it returns (`Reachable.bySlot`). Slots are
reused, so a completion sent for a task that was then removed runs a task added after it into
the same slot (`completion_runs_task_added_later`), and a task added into the slot of a running
task is lost when that task returns. -/

namespace ChunkRuntime

namespace RunLoop

variable {τ : Type} (l : RunLoop τ)

@[simp] theorem add_queue (t : τ) : (l.add t).2.queue = l.queue := by
  unfold add
  split <;> rfl

theorem size_le_add (t : τ) : l.tasks.size ≤ (l.add t).2.tasks.size := by
  unfold add
  split <;> simp

@[simp] theorem remove_queue (i : Nat) : (l.remove i).2.queue = l.queue := by
  unfold remove
  split <;> rfl

@[simp] theorem remove_size (i : Nat) : (l.remove i).2.tasks.size = l.tasks.size := by
  unfold remove
  split <;> simp

@[simp] theorem putBack_queue (i : Nat) (t : τ) : (l.putBack i t).queue = l.queue := by
  unfold putBack
  split <;> rfl

@[simp] theorem putBack_size (i : Nat) (t : τ) : (l.putBack i t).tasks.size = l.tasks.size := by
  unfold putBack
  split <;> simp

theorem putBack_slot {i : Nat} (hi : i < l.tasks.size) (t : τ) : (l.putBack i t).tasks[i]? = some (some t) := by
  unfold putBack
  rw [if_pos hi]
  simp [hi]

/-- Taking the next completion: the task its slot holds is taken out to run, or the completion
is dropped when the slot holds none. -/
theorem next_of_cons {c : Completion} {rest : List Completion} (hq : l.queue = c :: rest)
    (hs : l.stopRequested = false) :
    l.next = match l.tasks[c.task]? with
      | some (some t) => (.dispatch c.task c.status t,
          { l with queue := rest, tasks := l.tasks.set! c.task none })
      | _ => (.skip, { l with queue := rest }) := by
  unfold next remove
  rw [hs, hq]
  dsimp only
  cases ht : l.tasks[c.task]? with
  | none => rfl
  | some o => cases o <;> rfl

end RunLoop

/-- The task a step of a started loop runs, if any. -/
def RunLoop.Next.ran {τ : Type} : RunLoop.Next τ → Option τ
  | .dispatch _ _ t => some t
  | _ => none

/-- Something that happens to a run loop: a task added or removed, a completion sent through
some completer, the loop taking the next completion, or the innermost running task returning. -/
inductive LoopEvent (τ : Type) where
  | add (t : τ)
  | remove (i : Nat)
  | send (c : Completion)
  | take
  | finish

/-- A run loop with the history of its completions: every completion sent, in order, every
completion the loop took, in order, with the task it ran, and the tasks now running, innermost
first, with their slots. -/
structure Dispatch (τ : Type) where
  loop : RunLoop τ
  sent : List Completion := []
  taken : List (Completion × Option τ) := []
  running : List (Nat × τ) := []

namespace Dispatch

variable {τ : Type}

/-- One event. -/
def step (s : Dispatch τ) : LoopEvent τ → Dispatch τ
  | .add t => { s with loop := (s.loop.add t).2 }
  | .remove i => { s with loop := (s.loop.remove i).2 }
  | .send c => { s with loop := s.loop.enqueue c, sent := s.sent ++ [c] }
  | .take =>
    match s.loop.queue, s.loop.next with
    | c :: _, (.dispatch i _ t, l) =>
      { s with loop := l, taken := s.taken ++ [(c, some t)], running := (i, t) :: s.running }
    | c :: _, (.skip, l) => { s with loop := l, taken := s.taken ++ [(c, none)] }
    | _, _ => s
  | .finish =>
    match s.running with
    | (i, t) :: rest => { s with loop := s.loop.putBack i t, running := rest }
    | [] => s

/-- A run of events. -/
def run (s : Dispatch τ) (es : List (LoopEvent τ)) : Dispatch τ := es.foldl step s

/-- The states reached from a loop with nothing queued and nothing running. -/
inductive Reachable : Dispatch τ → Prop
  | init {l : RunLoop τ} : l.queue = [] → Reachable ⟨l, [], [], []⟩
  | step {s : Dispatch τ} (e : LoopEvent τ) : Reachable s → Reachable (s.step e)

/-- What every reachable state keeps: the completions taken, then those queued, are those
sent, and every running task's slot exists. -/
structure Inv (s : Dispatch τ) : Prop where
  fifo : s.taken.map Prod.fst ++ s.loop.queue = s.sent
  slots : ∀ p ∈ s.running, p.1 < s.loop.tasks.size

theorem step_take_dispatch {s : Dispatch τ} {c : Completion} {rest : List Completion} {t : τ}
    (hq : s.loop.queue = c :: rest) (hs : s.loop.stopRequested = false)
    (ht : s.loop.tasks[c.task]? = some (some t)) :
    s.step .take =
      { s with
        loop := { s.loop with queue := rest, tasks := s.loop.tasks.set! c.task none }
        taken := s.taken ++ [(c, some t)]
        running := (c.task, t) :: s.running } := by
  dsimp only [step]
  rw [RunLoop.next_of_cons s.loop hq hs, hq, ht]

theorem step_take_skip {s : Dispatch τ} {c : Completion} {rest : List Completion}
    (hq : s.loop.queue = c :: rest) (hs : s.loop.stopRequested = false)
    (ht : ∀ t, s.loop.tasks[c.task]? ≠ some (some t)) :
    s.step .take = { s with loop := { s.loop with queue := rest }, taken := s.taken ++ [(c, none)] } := by
  dsimp only [step]
  rw [RunLoop.next_of_cons s.loop hq hs, hq]
  cases h : s.loop.tasks[c.task]? with
  | none => rfl
  | some o =>
    cases o with
    | none => rfl
    | some t => exact absurd h (ht t)

theorem step_finish {s : Dispatch τ} {i : Nat} {t : τ} {rest : List (Nat × τ)}
    (hr : s.running = (i, t) :: rest) :
    s.step .finish = { s with loop := s.loop.putBack i t, running := rest } := by
  dsimp only [step]
  rw [hr]

theorem step_take_of_stop {s : Dispatch τ} (hs : s.loop.stopRequested = true) : s.step .take = s := by
  have hn : s.loop.next = (.stop, s.loop) := by simp [RunLoop.next, hs]
  dsimp only [step]
  rw [hn]
  cases s.loop.queue <;> rfl

theorem step_take_of_nil {s : Dispatch τ} (hq : s.loop.queue = []) : s.step .take = s := by
  dsimp only [step]
  rw [hq]

theorem Inv.step_inv {s : Dispatch τ} (hs : s.Inv) (e : LoopEvent τ) : (s.step e).Inv := by
  cases e with
  | add t =>
    exact ⟨by simpa [step] using hs.fifo,
      fun p hp => Nat.lt_of_lt_of_le (hs.slots p hp) (s.loop.size_le_add t)⟩
  | remove i => exact ⟨by simpa [step] using hs.fifo, by simpa [step] using hs.slots⟩
  | send c =>
    refine ⟨?_, hs.slots⟩
    simp only [step, RunLoop.enqueue, ← hs.fifo, List.append_assoc]
  | take =>
    cases hstop : s.loop.stopRequested with
    | true => rw [step_take_of_stop hstop]; exact hs
    | false =>
      cases hq : s.loop.queue with
      | nil => rw [step_take_of_nil hq]; exact hs
      | cons c rest =>
        have hfifo := hs.fifo
        rw [hq] at hfifo
        by_cases ht : ∃ t, s.loop.tasks[c.task]? = some (some t)
        · obtain ⟨t, ht⟩ := ht
          rw [step_take_dispatch hq hstop ht]
          refine ⟨by simpa using hfifo, fun p hp => ?_⟩
          rcases List.mem_cons.1 hp with rfl | hp
          · simpa using (Array.getElem?_eq_some_iff.1 ht).1
          · simpa using hs.slots p hp
        · rw [step_take_skip hq hstop fun t h => ht ⟨t, h⟩]
          exact ⟨by simpa using hfifo, hs.slots⟩
  | finish =>
    cases hr : s.running with
    | nil =>
      have hfin : s.step .finish = s := by simp [step, hr]
      rw [hfin]
      exact hs
    | cons p rest =>
      rw [step_finish hr]
      refine ⟨by simpa using hs.fifo, fun q hq => ?_⟩
      rw [RunLoop.putBack_size]
      exact hs.slots q (by rw [hr]; exact List.mem_cons_of_mem _ hq)

theorem Reachable.run {s : Dispatch τ} (h : s.Reachable) (es : List (LoopEvent τ)) :
    (s.run es).Reachable := by
  induction es generalizing s with
  | nil => exact h
  | cons e es ih => exact ih (h.step e)

theorem Reachable.inv {s : Dispatch τ} (h : s.Reachable) : s.Inv := by
  induction h with
  | init hq => exact ⟨by simpa using hq.symm, by simp⟩
  | step e _ ih => exact ih.step_inv e

/-- Taking the next completion runs the task its slot holds and leaves the slot empty for the
run, or runs none when the slot holds none. -/
theorem take_runs_slot {s : Dispatch τ} {c : Completion} {rest : List Completion}
    (hq : s.loop.queue = c :: rest) (hs : s.loop.stopRequested = false) :
    (s.step .take).taken = s.taken ++ [(c, (s.loop.tasks[c.task]?).join)] ∧
      ((s.step .take).loop.tasks[c.task]?).join = none := by
  by_cases ht : ∃ t, s.loop.tasks[c.task]? = some (some t)
  · obtain ⟨t, ht⟩ := ht
    have hlt : c.task < s.loop.tasks.size := (Array.getElem?_eq_some_iff.1 ht).1
    rw [step_take_dispatch hq hs ht, ht]
    simp [hlt]
  · have hnone : (s.loop.tasks[c.task]?).join = none := by
      cases h : s.loop.tasks[c.task]? with
      | none => rfl
      | some o =>
        cases o with
        | none => rfl
        | some t => exact absurd ⟨t, h⟩ ht
    rw [step_take_skip hq hs fun t h => ht ⟨t, h⟩, hnone]
    exact ⟨rfl, rfl⟩

/-- A task that returns goes back into its slot, over any task added there during its run. -/
theorem Inv.finish_puts_back {s : Dispatch τ} (hs : s.Inv) {i : Nat} {t : τ} {rest : List (Nat × τ)}
    (hr : s.running = (i, t) :: rest) : (s.step .finish).loop.tasks[i]? = some (some t) := by
  rw [step_finish hr]
  exact s.loop.putBack_slot (hs.slots (i, t) (by rw [hr]; exact List.mem_cons_self)) t

/-- A task added into the slot of a running task is lost when that task returns. -/
example : ((⟨{ channel := 0 }, [], [], []⟩ : Dispatch String).run
    [.add "t", .send ⟨0, 0⟩, .take, .add "u", .finish]).loop.tasks = #[some "t"] := by
  decide +kernel

/-- How the loop treats completions in a state: the completions it took, then those queued,
are those sent, so each is taken at most once and in the order sent; the next one taken runs the
task its slot holds, which leaves the slot for the run, and none when the slot holds none; and a
task that returns goes back into its slot. -/
structure BySlot (s : Dispatch τ) : Prop where
  fifo : s.taken.map Prod.fst ++ s.loop.queue = s.sent
  take_runs_slot : ∀ c rest, s.loop.queue = c :: rest → s.loop.stopRequested = false →
    (s.step .take).taken = s.taken ++ [(c, (s.loop.tasks[c.task]?).join)] ∧
      ((s.step .take).loop.tasks[c.task]?).join = none
  finish_puts_back : ∀ i t rest, s.running = (i, t) :: rest →
    (s.step .finish).loop.tasks[i]? = some (some t)

/-- Along every run, completions are taken in the order sent, each at most once, and each runs
whatever task holds its slot when it is taken. -/
theorem Reachable.bySlot {s : Dispatch τ} (h : s.Reachable) : s.BySlot :=
  have hs := h.inv
  ⟨hs.fifo, fun _ _ hq hstop => take_runs_slot hq hstop, fun _ _ _ hr => hs.finish_puts_back hr⟩

/-- A task sent a completion and taken out to run it. -/
theorem bySlot_running_task :
    ((⟨{ channel := 0 }, [], [], []⟩ : Dispatch String).run [.add "t", .send ⟨0, 5⟩, .take]).Reachable ∧
      ((⟨{ channel := 0 }, [], [], []⟩ : Dispatch String).run [.add "t", .send ⟨0, 5⟩, .take]).BySlot :=
  have h := (Reachable.init (show ({ channel := 0 } : RunLoop String).queue = [] from rfl)).run
    [.add "t", .send ⟨0, 5⟩, .take]
  ⟨h, h.bySlot⟩

/-- A completion sent for a task that is then removed runs the task added into its slot after
it, not the task it was sent for. -/
theorem completion_runs_task_added_later :
    ((⟨{ channel := 0 }, [], [], []⟩ : Dispatch String).run
      [.add "t", .add "s", .send ⟨0, 0⟩, .remove 0, .add "u", .send ⟨1, 0⟩, .take]).taken =
      [(⟨0, 0⟩, some "u")] := by
  decide +kernel

end Dispatch

end ChunkRuntime
