import Mathlib
import ChunkRuntime.Proofs.Launch

/-! The start frames of a run loop as a system of events (`Starts`): the thread's code acts or
starts the loop, the innermost frame turns, a task returns into its frame, a panic unwinds frames,
and completions arrive at any time. Every state reached keeps `Starts.Inv`, and from it
`Starts.Laws`: completions are taken in the order sent, the depth counts the frames active and
unwound, and a stop ends the innermost frame alone, at once when asked for before a start. -/

namespace ChunkRuntime

namespace RunLoop

variable {τ : Type} (l : RunLoop τ)

@[simp] theorem add_depth (t : τ) : (l.add t).2.depth = l.depth := by
  unfold add
  split <;> rfl

@[simp] theorem remove_depth (i : Nat) : (l.remove i).2.depth = l.depth := by
  unfold remove
  split <;> rfl

@[simp] theorem putBack_depth (i : Nat) (t : τ) : (l.putBack i t).depth = l.depth := by
  unfold putBack
  split <;> rfl

variable {l} {l' : RunLoop τ}

/-- A turn that finds a stop asked for leaves the loop as it is. -/
theorem next_eq_stop (h : l.next = (.stop, l')) : l' = l ∧ l.stopRequested = true := by
  unfold next at h
  split at h
  · next hs => cases h; exact ⟨rfl, hs⟩
  · split at h
    · cases h
    · dsimp only at h
      split at h <;> cases h

/-- A turn that waits finds no stop asked for and nothing queued, and leaves the loop as it is. -/
theorem next_eq_wait (h : l.next = (.wait, l')) : l' = l ∧ l.stopRequested = false ∧ l.queue = [] := by
  unfold next at h
  split at h
  · cases h
  · next hs =>
    split at h
    · next hq => cases h; exact ⟨rfl, by simpa using hs, hq⟩
    · dsimp only at h
      split at h <;> cases h

/-- A turn that takes a completion finds no stop asked for, and takes the head of the queue and
nothing else from it, at the same depth. -/
theorem next_takes {x : RunLoop.Next τ} (h : l.next = (x, l')) (hx : x ≠ .stop ∧ x ≠ .wait) :
    l.stopRequested = false ∧ l'.depth = l.depth ∧ ∃ c, l.queue = c :: l'.queue := by
  unfold next at h
  split at h
  · cases h; exact absurd rfl hx.1
  · next hs =>
    split at h
    · cases h; exact absurd rfl hx.2
    · next c rest hq =>
      dsimp only at h
      -- the slot is emptied, or the completion dropped; the queue is its tail either way
      split at h <;>
      · next hr =>
        cases h
        have hq' := remove_queue { l with queue := rest } c.task
        have hd := remove_depth { l with queue := rest } c.task
        rw [hr] at hq' hd
        exact ⟨by simpa using hs, hd, c, by rw [hq, hq']⟩

/-- A turn with no stop asked for and nothing queued waits. -/
theorem next_of_empty (hs : l.stopRequested = false) (hq : l.queue = []) : l.next = (.wait, l) := by
  simp [next, hs, hq]

end RunLoop

/-- A start frame: about to turn, or running the task it took from slot `i`. -/
inductive Frame (τ : Type) where
  | idle
  | running (i : Nat) (t : τ)

namespace Frame

variable {τ : Type}

/-- The frame is about to turn. -/
def isIdle : Frame τ → Bool
  | .idle => true
  | .running .. => false

/-- The thread's code has the thread: no frame is active, or the innermost runs a task. -/
def codeRuns : List (Frame τ) → Bool
  | .idle :: _ => false
  | _ => true

theorem codeRuns_iff (fs : List (Frame τ)) : codeRuns fs = true ↔ ∀ f ∈ fs.head?, f.isIdle = false := by
  cases fs with
  | nil => simp [codeRuns]
  | cons f fs => cases f <;> simp [codeRuns, isIdle]

end Frame

/-- Something that happens on a loop's thread: its code adds, removes or stops, or starts the
loop; another thread sends a completion; the innermost frame turns; the task it runs returns,
as `t`; or a panic in that task unwinds `n` frames. -/
inductive StartEvent (τ : Type) where
  | add (t : τ)
  | remove (i : Nat)
  | stop
  | send (c : Completion)
  | start
  | turn
  | finish (t : τ)
  | unwind (n : Nat)

/-- A run loop with its start frames, innermost first, the completions sent to it and taken by
it, with the task each ran, and the number of frames a panic unwound. -/
structure Starts (τ : Type) where
  loop : RunLoop τ
  frames : List (Frame τ) := []
  sent : List Completion := []
  taken : List (Completion × Option τ) := []
  unwound : Nat := 0

namespace Starts

variable {τ : Type}

/-- One event, when it can happen: the thread's code acts only while no frame is about to turn;
a frame turns only when it is about to, and never while nothing is queued and no stop is asked
for; a task returns only into the frame that runs it. -/
def step (s : Starts τ) : StartEvent τ → Option (Starts τ)
  | .add t => if Frame.codeRuns s.frames then some { s with loop := (s.loop.add t).2 } else none
  | .remove i => if Frame.codeRuns s.frames then some { s with loop := (s.loop.remove i).2 } else none
  | .stop => if Frame.codeRuns s.frames then some { s with loop := s.loop.stop } else none
  | .send c => some { s with loop := s.loop.enqueue c, sent := s.sent ++ [c] }
  | .start =>
    if Frame.codeRuns s.frames then some { s with loop := s.loop.enter, frames := .idle :: s.frames }
    else none
  | .turn =>
    match s.frames with
    | .idle :: rest =>
      match s.loop.next, s.loop.queue with
      | (.stop, l), _ => some { s with loop := l.leave, frames := rest }
      | (.dispatch i _ t, l), c :: _ =>
        some { s with loop := l, frames := .running i t :: rest, taken := s.taken ++ [(c, some t)] }
      | (.skip, l), c :: _ => some { s with loop := l, taken := s.taken ++ [(c, none)] }
      | _, _ => none
    | _ => none
  | .finish t =>
    match s.frames with
    | .running i _ :: rest => some { s with loop := s.loop.putBack i t, frames := .idle :: rest }
    | _ => none
  | .unwind n =>
    if Frame.codeRuns s.frames = true ∧ n ≤ s.frames.length then
      some { s with frames := s.frames.drop n, unwound := s.unwound + n }
    else none

section Events

variable {s : Starts τ}

theorem step_add (hc : Frame.codeRuns s.frames = true) (t : τ) :
    s.step (.add t) = some { s with loop := (s.loop.add t).2 } := by
  simp [step, hc]

theorem step_remove (hc : Frame.codeRuns s.frames = true) (i : Nat) :
    s.step (.remove i) = some { s with loop := (s.loop.remove i).2 } := by
  simp [step, hc]

theorem step_stop (hc : Frame.codeRuns s.frames = true) : s.step .stop = some { s with loop := s.loop.stop } := by
  simp [step, hc]

theorem step_send (c : Completion) :
    s.step (.send c) = some { s with loop := s.loop.enqueue c, sent := s.sent ++ [c] } := rfl

theorem step_start (hc : Frame.codeRuns s.frames = true) :
    s.step .start = some { s with loop := s.loop.enter, frames := .idle :: s.frames } := by
  simp [step, hc]

theorem step_finish {i : Nat} {t₀ : τ} {rest : List (Frame τ)} (hf : s.frames = .running i t₀ :: rest) (t : τ) :
    s.step (.finish t) = some { s with loop := s.loop.putBack i t, frames := .idle :: rest } := by
  simp [step, hf]

end Events

/-- One event leads from `s` to `s'`. -/
def Moves (s s' : Starts τ) : Prop := ∃ e, s.step e = some s'

/-- Some events lead from `s` to `s'`. -/
def Reaches : Starts τ → Starts τ → Prop := Relation.ReflTransGen Moves

/-- A loop as found, with no frame active yet; the frames its depth already counts were unwound
before. -/
def init (l : RunLoop τ) : Starts τ := { loop := l, sent := l.queue, unwound := l.depth }

/-- What every state reached keeps. -/
structure Inv (s : Starts τ) : Prop where
  fifo : s.taken.map Prod.fst ++ s.loop.queue = s.sent
  depth : s.loop.depth = s.frames.length + s.unwound
  enclosing : ∀ f ∈ s.frames.tail, f.isIdle = false

theorem inv_init (l : RunLoop τ) : (init l).Inv := ⟨rfl, by simp [init], by simp [init]⟩

/-- A frame pushed on frames whose innermost runs a task leaves every enclosing frame running. -/
theorem enclosing_push {fs : List (Frame τ)} (hc : Frame.codeRuns fs = true)
    (henc : ∀ f ∈ fs.tail, f.isIdle = false) : ∀ f ∈ fs, f.isIdle = false := by
  cases fs with
  | nil => intro f hf; cases hf
  | cons g gs =>
    intro f hf
    rcases List.mem_cons.1 hf with rfl | hf
    · exact (Frame.codeRuns_iff _).1 hc f rfl
    · exact henc f hf

variable {s s' : Starts τ}

theorem Inv.step_inv (hs : s.Inv) {e : StartEvent τ} (h : s.step e = some s') : s'.Inv := by
  cases e with
  | add t =>
    dsimp only [step] at h
    split at h
    · cases h
      exact ⟨by simpa using hs.fifo, by simpa using hs.depth, hs.enclosing⟩
    · cases h
  | remove i =>
    dsimp only [step] at h
    split at h
    · cases h
      exact ⟨by simpa using hs.fifo, by simpa using hs.depth, hs.enclosing⟩
    · cases h
  | stop =>
    dsimp only [step] at h
    split at h
    · cases h
      exact ⟨hs.fifo, hs.depth, hs.enclosing⟩
    · cases h
  | send c =>
    cases h
    refine ⟨?_, hs.depth, hs.enclosing⟩
    simp only [RunLoop.enqueue, ← hs.fifo, List.append_assoc]
  | start =>
    dsimp only [step] at h
    split at h
    · next hc =>
      cases h
      refine ⟨hs.fifo, ?_, enclosing_push hc hs.enclosing⟩
      simp only [RunLoop.enter, List.length_cons, hs.depth]
      omega
    · cases h
  | turn =>
    dsimp only [step] at h
    split at h
    · next rest hf =>
      have hd := hs.depth
      have hfifo := hs.fifo
      have henc := hs.enclosing
      rw [hf] at hd henc
      split at h
      · -- a stop asked for: the frame leaves and the flag is cleared
        next l _ hn =>
        obtain ⟨rfl, -⟩ := RunLoop.next_eq_stop hn
        cases h
        refine ⟨hfifo, ?_, fun f hf' => henc f (List.mem_of_mem_tail hf')⟩
        simp only [RunLoop.leave, List.length_cons] at hd ⊢
        omega
      · -- a task is taken out to run
        next i st t l c q hn hq =>
        obtain ⟨-, hdepth, c', hq'⟩ := RunLoop.next_takes hn (by simp)
        rw [hq] at hq'
        obtain ⟨rfl, rfl⟩ := List.cons.inj hq'
        cases h
        exact ⟨by simpa [hq] using hfifo, by simpa [hdepth] using hd, henc⟩
      · -- a completion for an empty slot is dropped
        next l c q hn hq =>
        obtain ⟨-, hdepth, c', hq'⟩ := RunLoop.next_takes hn (by simp)
        rw [hq] at hq'
        obtain ⟨rfl, rfl⟩ := List.cons.inj hq'
        cases h
        exact ⟨by simpa [hq] using hfifo, by simpa [hdepth, hf] using hs.depth, hs.enclosing⟩
      · cases h
    · cases h
  | finish t =>
    dsimp only [step] at h
    split at h
    · next i t₀ rest hf =>
      cases h
      have henc := hs.enclosing
      rw [hf] at henc
      exact ⟨by simpa using hs.fifo, by simpa [hf] using hs.depth, henc⟩
    · cases h
  | unwind n =>
    dsimp only [step] at h
    split at h
    · next hn =>
      cases h
      refine ⟨hs.fifo, ?_, fun f hf => hs.enclosing f ?_⟩
      · simp only [List.length_drop, hs.depth]
        omega
      · -- the frames left are a tail of the frames
        rw [List.tail_drop, ← List.drop_tail] at hf
        exact List.mem_of_mem_drop hf
    · cases h

theorem Inv.reaches (hs : s.Inv) (h : s.Reaches s') : s'.Inv := by
  induction h with
  | refl => exact hs
  | tail _ hm ih => obtain ⟨e, he⟩ := hm; exact ih.step_inv he

/-- No event takes back a frame unwound. -/
theorem unwound_le_of_step {e : StartEvent τ} (h : s.step e = some s') : s.unwound ≤ s'.unwound := by
  cases e with
  | send c => cases h; exact le_rfl
  | turn =>
    dsimp only [step] at h
    split at h
    · split at h <;> cases h <;> exact le_rfl
    · cases h
  | finish t =>
    dsimp only [step] at h
    split at h
    · cases h; exact le_rfl
    · cases h
  | unwind n =>
    dsimp only [step] at h
    split at h
    · cases h; exact Nat.le_add_right _ _
    · cases h
  | _ =>
    dsimp only [step] at h
    split at h
    · cases h; exact le_rfl
    · cases h

theorem unwound_le_of_reaches (h : s.Reaches s') : s.unwound ≤ s'.unwound := by
  induction h with
  | refl => exact le_rfl
  | tail _ hm ih => obtain ⟨e, he⟩ := hm; exact ih.trans (unwound_le_of_step he)

/-! ### Turning -/

theorem turn_eq (s : Starts τ) (rest : List (Frame τ)) (hf : s.frames = .idle :: rest) :
    s.step .turn =
      match s.loop.next, s.loop.queue with
      | (.stop, l), _ => some { s with loop := l.leave, frames := rest }
      | (.dispatch i _ t, l), c :: _ =>
        some { s with loop := l, frames := .running i t :: rest, taken := s.taken ++ [(c, some t)] }
      | (.skip, l), c :: _ => some { s with loop := l, taken := s.taken ++ [(c, none)] }
      | _, _ => none := by
  dsimp only [step]
  rw [hf]

/-- A turn that finds a stop asked for ends its frame: the flag is cleared and the depth goes
down by one, and nothing is taken. -/
theorem turn_of_stop {rest : List (Frame τ)} (hf : s.frames = .idle :: rest) (hs : s.loop.stopRequested = true) :
    s.step .turn = some { s with loop := { s.loop with stopRequested := false, depth := s.loop.depth - 1 }, frames := rest } := by
  rw [turn_eq s rest hf, RunLoop.next_of_stopped hs]
  rfl

/-- A turn that finds no stop asked for and nothing queued cannot happen: the frame waits. -/
theorem turn_of_empty {rest : List (Frame τ)} (hf : s.frames = .idle :: rest) (hs : s.loop.stopRequested = false)
    (hq : s.loop.queue = []) : s.step .turn = none := by
  rw [turn_eq s rest hf, RunLoop.next_of_empty hs hq, hq]

/-- A turn that finds no stop asked for takes the completion at the head of the queue, and runs
the task its slot holds, emptying the slot for the run, or drops the completion when the slot
holds none. -/
theorem turn_of_cons {rest : List (Frame τ)} {c : Completion} {q : List Completion} (hf : s.frames = .idle :: rest)
    (hs : s.loop.stopRequested = false) (hq : s.loop.queue = c :: q) :
    s.step .turn = some (match s.loop.tasks[c.task]? with
      | some (some t) =>
        { s with
          loop := { s.loop with queue := q, tasks := s.loop.tasks.set! c.task none }
          frames := .running c.task t :: rest
          taken := s.taken ++ [(c, some t)] }
      | _ => { s with loop := { s.loop with queue := q }, taken := s.taken ++ [(c, none)] }) := by
  rw [turn_eq s rest hf, RunLoop.next_of_cons s.loop hq hs, hq]
  cases s.loop.tasks[c.task]? with
  | none => rfl
  | some o => cases o <;> rfl

/-- A turn that drops a completion takes it off the head of the queue. -/
theorem turn_of_skip {rest : List (Frame τ)} {l' : RunLoop τ} (hf : s.frames = .idle :: rest)
    (hn : s.loop.next = (.skip, l')) : ∃ c, s.step .turn = some { s with loop := l', taken := s.taken ++ [(c, none)] } := by
  obtain ⟨-, -, c, hq⟩ := RunLoop.next_takes hn (by simp)
  rw [turn_eq s rest hf, hn, hq]
  exact ⟨c, rfl⟩

/-- A turn that takes a task out to run takes its completion off the head of the queue, and the
frame runs the task. -/
theorem turn_of_dispatch {rest : List (Frame τ)} {l' : RunLoop τ} {i : Nat} {st : Int} {t : τ}
    (hf : s.frames = .idle :: rest) (hn : s.loop.next = (.dispatch i st t, l')) :
    ∃ c, s.step .turn =
      some { s with loop := l', frames := .running i t :: rest, taken := s.taken ++ [(c, some t)] } := by
  obtain ⟨-, -, c, hq⟩ := RunLoop.next_takes hn (by simp)
  rw [turn_eq s rest hf, hn, hq]
  exact ⟨c, rfl⟩

/-- A stop asked for while the thread's code runs makes the next start return at its first
turn, taking nothing: the loop is as it was but for the flag, cleared. -/
theorem start_turn_of_stop (hc : Frame.codeRuns s.frames = true) (hs : s.loop.stopRequested = true) :
    (s.step .start).bind (·.step .turn) = some { s with loop := { s.loop with stopRequested := false } } := by
  rw [step_start hc, Option.bind_some, turn_of_stop rfl (by simpa [RunLoop.enter] using hs)]
  simp [RunLoop.enter]

/-- The laws of start frames: the order of takes, the depth, and what turns and starts do. -/
structure Laws (s : Starts τ) : Prop where
  fifo : s.taken.map Prod.fst ++ s.loop.queue = s.sent
  depth : s.loop.depth = s.frames.length + s.unwound
  running : s.loop.isRunning = true ↔ s.frames ≠ [] ∨ s.unwound ≠ 0
  enclosing : ∀ f ∈ s.frames.tail, f.isIdle = false
  turn_stop : ∀ rest, s.frames = .idle :: rest → s.loop.stopRequested = true →
    s.step .turn = some { s with loop := { s.loop with stopRequested := false, depth := s.loop.depth - 1 }, frames := rest }
  turn_wait : ∀ rest, s.frames = .idle :: rest → s.loop.stopRequested = false → s.loop.queue = [] →
    s.step .turn = none
  turn_take : ∀ rest c q, s.frames = .idle :: rest → s.loop.stopRequested = false → s.loop.queue = c :: q →
    ∃ s', s.step .turn = some s' ∧ s'.loop.queue = q ∧ s'.loop.stopRequested = false ∧
      s'.taken = s.taken ++ [(c, (s.loop.tasks[c.task]?).join)]
  stop_first : Frame.codeRuns s.frames = true → s.loop.stopRequested = true →
    (s.step .start).bind (·.step .turn) = some { s with loop := { s.loop with stopRequested := false } }

theorem Inv.laws (hs : s.Inv) : s.Laws := by
  refine ⟨hs.fifo, hs.depth, ?_, hs.enclosing, fun _ hf hst => turn_of_stop hf hst,
    fun _ hf hst hq => turn_of_empty hf hst hq, fun rest c q hf hst hq => ?_, start_turn_of_stop⟩
  · rw [RunLoop.isRunning, bne_iff_ne, hs.depth]
    cases s.frames <;> simp
  · rw [turn_of_cons hf hst hq]
    cases h : s.loop.tasks[c.task]? with
    | none => exact ⟨_, rfl, rfl, hst, by simp⟩
    | some o => cases o <;> exact ⟨_, rfl, rfl, hst, by simp⟩

theorem laws_of_reaches {l : RunLoop τ} (h : (init l).Reaches s) : s.Laws :=
  ((inv_init l).reaches h).laws

end Starts

end ChunkRuntime
