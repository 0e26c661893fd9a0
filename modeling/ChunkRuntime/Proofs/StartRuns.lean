import Mathlib
import ChunkRuntime.Proofs.Frames

/-! A thread's starts follow the frames system. Each call the interpreter makes on the loop is one
event of `Starts`, and a start action that answers a panic is the unwinding of the one frame its
start pushed, so the frames unwound are counted by the panic answers in the log (`frames`, an
`Invariant` whose obligations hold). Hence `start_follows_frames`: a start from the thread's code
returns with the stop flag clear and the depth back to its value on entry plus one for every
panic answered meanwhile, and blocks only where the innermost frame waits. -/

open Std.Do

set_option mvcgen.warning false

namespace ChunkRuntime

namespace Json.Value

/-- An action's answer to a panic it caught: a failure whose kind is `panic`. -/
def isPanicAnswer (v : Value) : Bool :=
  match v.field? "error" with
  | some (.str s) => s == "panic"
  | _ => false

/-- A log entry that records an action's answer to a panic. -/
def recordsPanic (v : Value) : Bool :=
  match v.field? "r" with
  | some r => r.isPanicAnswer
  | none => false

theorem recordsPanic_of_none {v : Value} (h : v.field? "r" = none) : v.recordsPanic = false := by
  simp [recordsPanic, h]

theorem recordsPanic_of_some {v r : Value} (h : v.field? "r" = some r) : v.recordsPanic = r.isPanicAnswer := by
  simp [recordsPanic, h]

end Json.Value

namespace Wire

open Json

theorem fault_isPanicAnswer (f : Fault) : (Failure.fault f).toValue.isPanicAnswer = true := by
  simp only [Failure.toValue, object, Value.sortedFields, Value.isPanicAnswer, Value.field?,
    List.reverse_cons, List.reverse_nil]
  rw [List.mergeSort_of_pairwise (by simp)]
  simp

theorem refused_isPanicAnswer (m : String) : (Failure.refused m).toValue.isPanicAnswer = false := by
  simp only [Failure.toValue, object, Value.sortedFields, Value.isPanicAnswer, Value.field?,
    List.reverse_cons, List.reverse_nil]
  rw [List.mergeSort_of_pairwise (by simp)]
  simp

theorem currentValue_isPanicAnswer (c : Ctx) : (currentValue c).isPanicAnswer = false := by
  simp only [currentValue, object, Value.sortedFields, Value.isPanicAnswer, Value.field?,
    List.reverse_cons, List.reverse_nil]
  rw [List.mergeSort_of_pairwise (by simp)]
  simp

/-- The panic answers a log records. -/
def panicAnswers (events : Array Value) : Nat := events.countP Value.recordsPanic

theorem panicAnswers_push (events : Array Value) (v : Value) :
    panicAnswers (events.push v) = panicAnswers events + if v.recordsPanic then 1 else 0 :=
  Array.countP_push

/-! ### The frames a thread is in -/

/-- Frame lists under which the thread's own code runs. -/
def CodeFrames : Type := {fs : List (Frame Task) // Frame.codeRuns fs = true}

variable (S₀ : Starts Task) (e₀ : Array Value)

/-- `S`, reached from `S₀`, has frames `fs` and the thread's loop. -/
structure Placed (fs : List (Frame Task)) (c : Ctx) (S : Starts Task) : Prop where
  reaches : S₀.Reaches S
  frames : S.frames = fs
  loop : c.loop = some S.loop

/-- `S` has unwound a frame more than `S₀` for every panic answer logged since the log was `e₀`,
and `k` more. -/
def Counted (k : Nat) (c : Ctx) (S : Starts Task) : Prop :=
  S.unwound + panicAnswers e₀ = S₀.unwound + panicAnswers c.events + k

/-- The thread's code runs with frames `fs`. -/
def Follows (fs : List (Frame Task)) (c : Ctx) : Prop :=
  ∃ S, Placed S₀ fs c S ∧ Counted S₀ e₀ 0 c S

/-- The innermost frame, above `fs`, found a stop asked for. -/
def StopAsked (fs : List (Frame Task)) (c : Ctx) : Prop :=
  ∃ S, Placed S₀ (.idle :: fs) c S ∧ Counted S₀ e₀ 0 c S ∧ S.loop.stopRequested = true

/-- A start returned to frames `fs`, with the stop flag clear. -/
def Returned (fs : List (Frame Task)) (c : Ctx) : Prop :=
  ∃ S, Placed S₀ fs c S ∧ Counted S₀ e₀ 0 c S ∧ S.loop.stopRequested = false

/-- An action answered `r` with frames `fs`: a frame more is unwound when `r` answers a panic,
unless the log is full, when the answer cannot be logged. -/
def Answered (fs : List (Frame Task)) (r : Value) (c : Ctx) : Prop :=
  ∃ S, Placed S₀ fs c S ∧
    (Counted S₀ e₀ (if r.isPanicAnswer then 1 else 0) c S ∨ eventLimit ≤ c.events.size ∧ r.isPanicAnswer = true)

/-- A panic raised with frames `fs`; with the log full some answers may have gone unlogged. -/
def Raised (fs : List (Frame Task)) (c : Ctx) : Prop :=
  ∃ S, Placed S₀ fs c S ∧ (Counted S₀ e₀ 0 c S ∨ eventLimit ≤ c.events.size)

/-- The innermost frame, above `fs` and some others, waits: no stop asked for and nothing queued. -/
def Waiting (fs : List (Frame Task)) (c : Ctx) : Prop :=
  ∃ extra S, Placed S₀ (.idle :: extra ++ fs) c S ∧ Counted S₀ e₀ 0 c S ∧
    S.loop.stopRequested = false ∧ S.loop.queue = []

/-- The thread ran out of steps with frames above `fs`. -/
def Spent (fs : List (Frame Task)) (c : Ctx) : Prop :=
  ∃ extra S, Placed S₀ (extra ++ fs) c S ∧ Counted S₀ e₀ 0 c S

/-- What unwinds out of the thread's code with frames `fs`. -/
def Halted (fs : List (Frame Task)) : Unwind → Ctx → Prop
  | .panic _ => Raised S₀ e₀ fs
  | .blocked => Waiting S₀ e₀ fs
  | .outOfFuel => Spent S₀ e₀ fs

/-- What unwinds out of a start made with frames `fs`: a panic raised by the task its frame ran. -/
def Unwinding (fs : List (Frame Task)) : Unwind → Ctx → Prop
  | .panic _ => fun c => ∃ j t, Raised S₀ e₀ (.running j t :: fs) c
  | .blocked => Waiting S₀ e₀ fs
  | .outOfFuel => Spent S₀ e₀ fs

/-- The frames system as an invariant of the interpreter. -/
def frames : Invariant CodeFrames where
  code fs := Follows S₀ e₀ fs.1
  idle fs := Follows S₀ e₀ (.idle :: fs.1)
  stopping fs := StopAsked S₀ e₀ fs.1
  returned fs := Returned S₀ e₀ fs.1
  answered fs := Answered S₀ e₀ fs.1
  halted fs := Halted S₀ e₀ fs.1
  unwound fs := Unwinding S₀ e₀ fs.1
  run fs j t := ⟨.running j t :: fs.1, rfl⟩

variable {S₀ e₀} {fs : List (Frame Task)} {c : Ctx}

/-! ### Steps of the frames system -/

/-- An event that unwinds nothing, from the state the thread follows, acting on its loop as `f`. -/
theorem Follows.move {fs' : List (Frame Task)} {e : StartEvent Task} {f : RunLoop Task → RunLoop Task}
    (h : Follows S₀ e₀ fs c)
    (hstep : ∀ S : Starts Task, S.frames = fs →
      ∃ S', S.step e = some S' ∧ S'.frames = fs' ∧ S'.loop = f S.loop ∧ S'.unwound = S.unwound) :
    Follows S₀ e₀ fs' { c with loop := c.loop.map f } := by
  obtain ⟨S, ⟨hS, hf, hl⟩, hk⟩ := h
  obtain ⟨S', he, hf', hl', hu⟩ := hstep S hf
  refine ⟨S', ⟨hS.tail ⟨e, he⟩, hf', by simp [hl, hl']⟩, ?_⟩
  simpa [Counted, hu] using hk

/-- The thread's code acts on the loop as an event of the system does. -/
theorem Follows.act (h : Follows S₀ e₀ fs c) (hfs : Frame.codeRuns fs = true) {e : StartEvent Task}
    {f : RunLoop Task → RunLoop Task}
    (he : ∀ S : Starts Task, Frame.codeRuns S.frames = true → S.step e = some { S with loop := f S.loop }) :
    Follows S₀ e₀ fs { c with loop := c.loop.map f } :=
  h.move fun S hf => ⟨_, he S (hf ▸ hfs), hf, rfl, rfl⟩

/-- The state the thread follows has the thread's loop. -/
theorem Follows.of_loop {l : RunLoop Task} (h : Follows S₀ e₀ fs c) (hc : c.loop = some l) :
    ∃ S, Placed S₀ fs c S ∧ Counted S₀ e₀ 0 c S ∧ S.loop = l := by
  obtain ⟨S, hp, hk⟩ := h
  exact ⟨S, hp, hk, Option.some.inj (hp.loop.symm.trans hc)⟩

/-- An answer that is no panic answer unwinds nothing. -/
theorem Follows.answered {r : Value} (h : Follows S₀ e₀ fs c) (hr : r.isPanicAnswer = false) :
    Answered S₀ e₀ fs r c := by
  obtain ⟨S, hp, hk⟩ := h
  exact ⟨S, hp, .inl (by simpa [hr] using hk)⟩

theorem Follows.refused {f : Failure} (h : Follows S₀ e₀ fs c) (hf : ∃ m, f = .refused m) :
    Answered S₀ e₀ fs f.toValue c := by
  obtain ⟨m, rfl⟩ := hf
  exact h.answered (refused_isPanicAnswer m)

/-- A panic raised by the thread's code, its answers all logged. -/
theorem Follows.raised (h : Follows S₀ e₀ fs c) : Raised S₀ e₀ fs c := by
  obtain ⟨S, hp, hk⟩ := h
  exact ⟨S, hp, .inl hk⟩

/-- A start action that answers a panic unwinds the one frame its start pushed. -/
theorem Raised.caught {j : Nat} {t : Task} (h : Raised S₀ e₀ (.running j t :: fs) c) (f : Fault) :
    Answered S₀ e₀ fs (Failure.fault f).toValue c := by
  obtain ⟨S, ⟨hS, hf, hl⟩, hk⟩ := h
  have hstep : S.step (.unwind 1) = some { S with frames := fs, unwound := S.unwound + 1 } := by
    simp [Starts.step, hf, Frame.codeRuns]
  refine ⟨_, ⟨hS.tail ⟨_, hstep⟩, rfl, hl⟩, ?_⟩
  rw [fault_isPanicAnswer]
  rcases hk with hk | hk
  · exact .inl (by simp only [Counted, if_true] at hk ⊢; omega)
  · exact .inr ⟨hk, rfl⟩

/-- What unwinds out of a frame's task unwinds out of the frames below it. -/
theorem Waiting.cons {f : Frame Task} (h : Waiting S₀ e₀ (f :: fs) c) : Waiting S₀ e₀ fs c := by
  obtain ⟨extra, S, hp, hk, hs, hq⟩ := h
  exact ⟨extra ++ [f], S, by simpa using hp, hk, hs, hq⟩

theorem Spent.cons {f : Frame Task} (h : Spent S₀ e₀ (f :: fs) c) : Spent S₀ e₀ fs c := by
  obtain ⟨extra, S, hp, hk⟩ := h
  exact ⟨extra ++ [f], S, by simpa using hp, hk⟩

theorem Follows.spent (h : Follows S₀ e₀ fs c) : Spent S₀ e₀ fs c := by
  obtain ⟨S, hp, hk⟩ := h
  exact ⟨[], S, hp, hk⟩

/-- Only the loop and the log matter. -/
theorem Follows.congr {c' : Ctx} (h : Follows S₀ e₀ fs c) (hl : c'.loop = c.loop) (he : c'.events = c.events) :
    Follows S₀ e₀ fs c' := by
  obtain ⟨S, ⟨hS, hf, hloop⟩, hk⟩ := h
  exact ⟨S, ⟨hS, hf, hl.trans hloop⟩, by simpa [Counted, he] using hk⟩

/-- Logging an entry that records no answer to a panic. -/
theorem Follows.log {v : Value} (h : Follows S₀ e₀ fs c) (hv : v.recordsPanic = false) :
    Follows S₀ e₀ fs { c with events := c.events.push v } := by
  obtain ⟨S, hp, hk⟩ := h
  exact ⟨S, ⟨hp.reaches, hp.frames, hp.loop⟩, by simpa [Counted, panicAnswers_push, hv] using hk⟩

/-- Logging an action's answer: a panic answer now counts the frame its start action unwound. -/
theorem Answered.log {r v : Value} (h : Answered S₀ e₀ fs r c) (hv : v.field? "r" = some r)
    (hroom : c.events.size < eventLimit) : Follows S₀ e₀ fs { c with events := c.events.push v } := by
  obtain ⟨S, hp, hk | ⟨hfull, -⟩⟩ := h
  · refine ⟨S, ⟨hp.reaches, hp.frames, hp.loop⟩, ?_⟩
    simp only [Counted, panicAnswers_push, Value.recordsPanic_of_some hv] at hk ⊢
    omega
  · omega

/-- An answer the full log cannot take. -/
theorem Answered.full {r : Value} (h : Answered S₀ e₀ fs r c) (hfull : eventLimit ≤ c.events.size) :
    Raised S₀ e₀ fs c := by
  obtain ⟨S, hp, -⟩ := h
  exact ⟨S, hp, .inr hfull⟩

/-! ### Turns -/

section Turns

variable {l : RunLoop Task}

/-- A turn that finds a stop asked for leaves the loop as it is. -/
theorem Follows.turn_stop (h : Follows S₀ e₀ (.idle :: fs) c) (hc : c.loop = some l) (hn : l.next.1 = .stop) :
    StopAsked S₀ e₀ fs { c with loop := some l.next.2 } := by
  obtain ⟨S, hp, hk, rfl⟩ := h.of_loop hc
  obtain ⟨hl', hst⟩ := RunLoop.next_eq_stop (Prod.ext hn rfl : S.loop.next = (.stop, S.loop.next.2))
  exact ⟨S, ⟨hp.reaches, hp.frames, by rw [hl']⟩, hk, hst⟩

/-- A turn that finds no stop asked for and nothing queued waits. -/
theorem Follows.turn_wait (h : Follows S₀ e₀ (.idle :: fs) c) (hc : c.loop = some l) (hn : l.next.1 = .wait) :
    Waiting S₀ e₀ fs { c with loop := some l.next.2 } := by
  obtain ⟨S, hp, hk, rfl⟩ := h.of_loop hc
  obtain ⟨hl', hst, hq⟩ := RunLoop.next_eq_wait (Prod.ext hn rfl : S.loop.next = (.wait, S.loop.next.2))
  exact ⟨[], S, ⟨hp.reaches, hp.frames, by rw [hl']⟩, hk, hst, hq⟩

/-- A turn that drops a completion for an empty slot. -/
theorem Follows.turn_skip (h : Follows S₀ e₀ (.idle :: fs) c) (hc : c.loop = some l) (hn : l.next.1 = .skip) :
    Follows S₀ e₀ (.idle :: fs) { c with loop := some l.next.2 } := by
  obtain ⟨S, hp, hk, rfl⟩ := h.of_loop hc
  obtain ⟨_, ht⟩ := Starts.turn_of_skip hp.frames (Prod.ext hn rfl)
  exact ⟨_, ⟨hp.reaches.tail ⟨.turn, ht⟩, hp.frames, rfl⟩, hk⟩

/-- A turn that takes a task out of its slot to run it. -/
theorem Follows.turn_dispatch {j : Nat} {st : Int} {t : Task} (h : Follows S₀ e₀ (.idle :: fs) c)
    (hc : c.loop = some l) (hn : l.next.1 = .dispatch j st t) :
    Follows S₀ e₀ (.running j t :: fs) { c with loop := some l.next.2 } := by
  obtain ⟨S, hp, hk, rfl⟩ := h.of_loop hc
  obtain ⟨_, ht⟩ := Starts.turn_of_dispatch hp.frames (Prod.ext hn rfl)
  exact ⟨_, ⟨hp.reaches.tail ⟨.turn, ht⟩, rfl, rfl⟩, hk⟩

/-- Leaving a start is the turn that found the stop. -/
theorem StopAsked.leave (h : StopAsked S₀ e₀ fs c) :
    Returned S₀ e₀ fs { c with loop := c.loop.map RunLoop.leave } := by
  obtain ⟨S, hp, hk, hst⟩ := h
  refine ⟨_, ⟨hp.reaches.tail ⟨.turn, Starts.turn_of_stop hp.frames hst⟩, rfl, ?_⟩, hk, rfl⟩
  rw [hp.loop]
  rfl

theorem Returned.follows (h : Returned S₀ e₀ fs c) : Follows S₀ e₀ fs c := by
  obtain ⟨S, hp, hk, -⟩ := h
  exact ⟨S, hp, hk⟩

end Turns

/-! ### The calls on the loop -/

section Actions

variable {E : Unwind → Ctx → Prop}

theorem stop_follows (hfs : Frame.codeRuns fs = true) :
    ⦃fun c => ⌜Follows S₀ e₀ fs c⌝⦄ modifyLoop RunLoop.stop ⦃post⟨fun _ c => ⌜Follows S₀ e₀ fs c⌝, fun u c => ⌜E u c⌝⟩⦄ := by
  mvcgen [modifyLoop]
  exact Follows.act (by assumption) hfs fun _ => Starts.step_stop

theorem addTask_follows (hfs : Frame.codeRuns fs = true) (t : Task) :
    ⦃fun c => ⌜Follows S₀ e₀ fs c⌝⦄ addTask t ⦃post⟨fun _ c => ⌜Follows S₀ e₀ fs c⌝, fun u c => ⌜E u c⌝⟩⦄ := by
  mvcgen [addTask]
  next c hc l hl =>
  exact (hc.act hfs fun _ h => Starts.step_add h t).congr (by rw [hl]; rfl) rfl

/-- A completion sent through a completer of this loop is an event at any time; a completion
with no completer is refused. -/
theorem completeTask_follows (id : Nat) (status : Int) :
    ⦃fun c => ⌜Follows S₀ e₀ fs c⌝⦄ completeTask id status
      ⦃post⟨fun r c => ⌜Follows S₀ e₀ fs c ∧ ∀ f, r = .error f → ∃ m, f = .refused m⌝, fun u c => ⌜E u c⌝⟩⦄ := by
  mvcgen [completeTask]
  · exact ⟨by assumption, fun f hf => ⟨_, (Except.error.inj hf).symm⟩⟩
  · next c hc _ _ _ l hl _ =>
    refine ⟨(hc.move fun _ hf => ⟨_, Starts.step_send ⟨id, status⟩, hf, rfl, rfl⟩).congr (by rw [hl]; rfl) rfl, by rintro _ ⟨⟩⟩
  all_goals exact ⟨by assumption, by rintro _ ⟨⟩⟩

/-- Every action but a start acts as events of the system do, and answers no panic. -/
theorem basicAction_answers (hfs : Frame.codeRuns fs = true) (info : RunInfo) (op : String) (a : Value) :
    ⦃fun c => ⌜Follows S₀ e₀ fs c⌝⦄ basicAction info op a
      ⦃post⟨fun r c => ⌜Answered S₀ e₀ fs r c⌝, fun u c => ⌜Halted S₀ e₀ fs u c⌝⟩⦄ := by
  have hstop := @stop_follows S₀ e₀ fs (Halted S₀ e₀ fs) hfs
  have hadd := @addTask_follows S₀ e₀ fs (Halted S₀ e₀ fs) hfs
  have hcomplete := @completeTask_follows S₀ e₀ fs (Halted S₀ e₀ fs)
  mvcgen [basicAction, withLoop, withField, hstop, hadd, hcomplete]
  -- the plain answers and the refusals of a missing loop or an unknown action
  all_goals try exact Follows.answered (by assumption) rfl
  all_goals try exact Follows.answered (by assumption) (refused_isPanicAnswer _)
  -- a field read that fails is refused, and so is a completion with no completer
  · exact Follows.refused (by assumption) (field_error (by assumption))
  · exact Follows.refused (by assumption) (int32Field_error (by assumption))
  · exact Follows.refused (by assumption) (readTask_error (by assumption))
  · -- a removal empties a slot
    next c hc l hl i _ _ =>
    have hm : Follows S₀ e₀ fs { c with loop := c.loop.map fun l => (l.remove i).2 } :=
      hc.act hfs fun _ h => Starts.step_remove h i
    exact Follows.answered (hm.congr (by rw [hl]; rfl) rfl) rfl
  · exact Follows.refused (by assumption) (field_error (by assumption))
  · next _ hr => exact hr.1.answered rfl
  · next _ hr => exact hr.1.refused (hr.2 _ rfl)
  · exact Follows.refused (by assumption) (int32Field_error (by assumption))
  · exact Follows.refused (by assumption) (field_error (by assumption))
  · exact Follows.answered (by assumption) (currentValue_isPanicAnswer _)
  · exact Follows.raised (by assumption)

/-- A body's name and the exit callbacks it registers leave the loop and the log alone. -/
theorem bodyOnly_answers {op : String} {a : Value} {act : Run Value} (hact : bodyOnlyAction op a = some act) :
    ⦃fun c => ⌜Follows S₀ e₀ fs c⌝⦄ act ⦃post⟨fun r c => ⌜Answered S₀ e₀ fs r c⌝, fun u c => ⌜Halted S₀ e₀ fs u c⌝⟩⦄ := by
  unfold bodyOnlyAction at hact
  split at hact
  · cases hact
    mvcgen
    all_goals exact Follows.answered (by assumption) rfl
  · split at hact
    · cases hact
      mvcgen
      next _ hc => exact Follows.answered (hc.congr rfl rfl) rfl
    · cases hact

end Actions

/-! ### Unwinding -/

/-- The thread that follows the system has its loop. -/
theorem Follows.loop_ne_none (h : Follows S₀ e₀ fs c) : c.loop ≠ none := by
  obtain ⟨S, hp, -⟩ := h
  simp [hp.loop]

/-- What unwinds out of the task a frame runs unwinds out of the start that made the frame. -/
theorem Halted.unwinding {j : Nat} {t : Task} {u : Unwind} (h : Halted S₀ e₀ (.running j t :: fs) u c) :
    Unwinding S₀ e₀ fs u c := by
  cases u with
  | panic _ => exact ⟨j, t, h⟩
  | blocked => exact Waiting.cons h
  | outOfFuel => exact Spent.cons h

/-- A start action that answers a panic unwinds the frame its start made. -/
theorem Unwinding.caught {f : Fault} (h : Unwinding S₀ e₀ fs (.panic f) c) :
    Answered S₀ e₀ fs (Failure.fault f).toValue c := by
  obtain ⟨_, _, hr⟩ := h
  exact hr.caught f

/-- The frames system is an invariant of the interpreter. -/
theorem frames_obligations (S₀ : Starts Task) (e₀ : Array Value) : (frames S₀ e₀).Obligations where
  note _ _ _ hv hc _ := Follows.log hc (Value.recordsPanic_of_none hv)
  record _ _ _ _ hv ha hroom := Answered.log ha hv hroom
  full _ _ hc _ := Follows.raised hc
  fullRecord _ _ _ ha hfull := Answered.full ha hfull
  stop fs _ hc := Follows.act hc fs.2 fun _ => Starts.step_stop
  relaunch _ _ hc := Follows.congr hc rfl rfl
  panic _ _ hc := Follows.raised hc
  refuse _ m _ hc := Follows.answered hc (refused_isPanicAnswer m)
  basic fs := basicAction_answers fs.2
  bodyOnly _ _ _ _ := bodyOnly_answers
  enter fs _ hc := Follows.move hc fun _ hf => ⟨_, Starts.step_start (hf ▸ fs.2), by rw [hf], rfl, rfl⟩
  noLoop _ _ hc hl := absurd hl (Follows.loop_ne_none hc)
  turnStop _ _ _ hc hl hn := Follows.turn_stop hc hl hn
  turnWait _ _ _ hc hl hn := Follows.turn_wait hc hl hn
  turnSkip _ _ _ hc hl hn := Follows.turn_skip hc hl hn
  turnDispatch _ _ _ _ _ _ hc hl hn := Follows.turn_dispatch hc hl hn
  putBack _ _ _ t' _ hc _ := Follows.move hc fun _ hf => ⟨_, Starts.step_finish hf t', rfl, rfl, rfl⟩
  taskUnwound _ _ _ _ _ hu := Halted.unwinding hu
  leave _ _ hs := StopAsked.leave hs
  returns _ _ hr := Follows.answered (Returned.follows hr) rfl
  caught _ _ _ hu := Unwinding.caught hu
  waits _ _ h := h
  spent _ _ h := h
  codeFuel _ _ hc := Follows.spent hc
  startFuel _ _ hc := Follows.spent hc
  idleFuel _ _ hc := Spent.cons (Follows.spent hc)

/-! ### Turns of a started loop -/

section Starting

variable {c : Ctx} {l : RunLoop Task}

/-- A turn that finds a stop asked for returns at once and leaves the thread as it is. -/
theorem spin_of_stopped (hc : c.loop = some l) (hs : l.stopRequested = true) (n : Nat) :
    (spin (n + 1)).run c = (.ok (), c) := by
  rw [spin_run]
  simp only [hc, RunLoop.next_of_stopped hs]
  rw [← hc]

/-- A start with a stop asked for returns at its first check, with the flag cleared and nothing
taken. -/
theorem startLoop_of_stopped (hc : c.loop = some l) (hs : l.stopRequested = true) (n : Nat) :
    (startLoop (n + 2)).run c = (.ok (), { c with loop := some { l with stopRequested := false } }) := by
  rw [startLoop_run, spin_run]
  simp only [hc, Option.map_some, RunLoop.next_of_stopped (show l.enter.stopRequested = true from hs)]
  simp [RunLoop.enter, RunLoop.leave, hs]

/-- A start with no stop asked for and nothing queued waits for ever. -/
theorem startLoop_of_empty (hc : c.loop = some l) (hs : l.stopRequested = false) (hq : l.queue = []) (n : Nat) :
    (startLoop (n + 2)).run c = (.error .blocked, { c with loop := some l.enter }) := by
  rw [startLoop_run, spin_run]
  simp only [hc, Option.map_some, RunLoop.next_of_empty (show l.enter.stopRequested = false from hs)
    (show l.enter.queue = [] from hq)]

end Starting

/-! ### A start from the thread's code -/

/-- How a start of `l` made with the log `e₀` ended in `c'` when it returned: in a state the
frames system reaches with no frame active, the stop flag clear, and the depth back to `l`'s plus
one for every panic a start action answered meanwhile, so the loop reads running exactly when it
did before or some panic was answered. -/
structure Returns (l : RunLoop Task) (e₀ : Array Value) (c' : Ctx) : Prop where
  reached : ∃ S, (Starts.init l).Reaches S ∧ S.frames = [] ∧ c'.loop = some S.loop
  cleared : c'.loop.map RunLoop.stopRequested = some false
  logged : panicAnswers e₀ ≤ panicAnswers c'.events
  depth : c'.loop.map RunLoop.depth = some (l.depth + (panicAnswers c'.events - panicAnswers e₀))
  running : c'.loop.map RunLoop.isRunning =
    some (l.isRunning || decide (panicAnswers e₀ < panicAnswers c'.events))

/-- How it ended when a panic unwound out of it: the frame it made runs the task that panicked,
and the depth still counts that frame, unless the log was full. -/
structure PanicsOut (l : RunLoop Task) (e₀ : Array Value) (c' : Ctx) : Prop where
  reached : ∃ j t S, (Starts.init l).Reaches S ∧ S.frames = [.running j t] ∧ c'.loop = some S.loop
  depth : eventLimit ≤ c'.events.size ∨ panicAnswers e₀ ≤ panicAnswers c'.events ∧
    c'.loop.map RunLoop.depth = some (l.depth + 1 + (panicAnswers c'.events - panicAnswers e₀))

/-- A start of the loop `l` made by the thread's own code with no start frame active, from the
thread `c`. The frames system keeps its laws, and every function of the interpreter follows it
from any of its states; the start returns as `Returns` says, a panic out of it as `PanicsOut`
says, and it blocks only where its innermost frame waits with no stop asked for and nothing
queued; a stop asked for before the start makes it return at its first check, and one asked for
after a dispatch at the check that follows. -/
structure StartRun (l : RunLoop Task) (c : Ctx) : Prop where
  laws : ∀ S, (Starts.init l).Reaches S → S.Laws
  nested : ∀ S₀ e₀ n, (frames S₀ e₀).Holds n
  returns : ∀ n c', (startLoop n).run c = (.ok (), c') → Returns l c.events c'
  panics : ∀ n f c', (startLoop n).run c = (.error (.panic f), c') → PanicsOut l c.events c'
  waits : ∀ n c', (startLoop n).run c = (.error .blocked, c') →
    ∃ S fs, (Starts.init l).Reaches S ∧ S.frames = .idle :: fs ∧ c'.loop = some S.loop ∧
      S.loop.stopRequested = false ∧ S.loop.queue = []
  spent : ∀ n c', (startLoop n).run c = (.error .outOfFuel, c') →
    ∃ S, (Starts.init l).Reaches S ∧ c'.loop = some S.loop
  stop_first : l.stopRequested = true → ∀ n,
    (startLoop (n + 2)).run c = (.ok (), { c with loop := some { l with stopRequested := false } })
  waits_at_once : l.stopRequested = false → l.queue = [] → ∀ n,
    (startLoop (n + 2)).run c = (.error .blocked, { c with loop := some l.enter })
  stops : ∀ n c₁ l₁, c₁.loop = some l₁ → l₁.stopRequested = true → (spin (n + 1)).run c₁ = (.ok (), c₁)

section StartFromCode

variable {l : RunLoop Task} {c c' : Ctx} {n : Nat}

/-- The thread's code as found follows the system from its loop. -/
theorem follows_init (hc : c.loop = some l) : Follows (Starts.init l) c.events [] c :=
  ⟨_, ⟨.refl, rfl, hc⟩, rfl⟩

/-- A start from the thread's code, as a triple of the frames system. -/
theorem startLoop_frames (l : RunLoop Task) (e₀ : Array Value) (n : Nat) :
    ⦃fun c => ⌜Follows (Starts.init l) e₀ [] c⌝⦄ startLoop n
      ⦃post⟨fun _ c => ⌜Returned (Starts.init l) e₀ [] c⌝, fun u c => ⌜Unwinding (Starts.init l) e₀ [] u c⌝⟩⦄ :=
  ((frames_obligations (Starts.init l) e₀).holds n).startLoop ⟨[], rfl⟩

theorem returns_of_run (hc : c.loop = some l) (h : (startLoop n).run c = (.ok (), c')) :
    Returns l c.events c' := by
  have hr := run_of_triple_cases (startLoop_frames l c.events n) (follows_init hc)
  rw [h] at hr
  obtain ⟨S, hp, hk, hst⟩ := hr
  have hle := Starts.unwound_le_of_reaches hp.reaches
  -- with no frame active, the depth counts the frames unwound, before the start or since
  have hdepth : S.loop.depth = S.unwound := by simpa [hp.frames] using (Starts.laws_of_reaches hp.reaches).depth
  simp only [Counted, Starts.init, Nat.add_zero] at hk hle
  refine ⟨⟨S, hp.reaches, hp.frames, hp.loop⟩, by simp [hp.loop, hst], by omega, ?_, ?_⟩
  · simp only [hp.loop, Option.map_some, hdepth, Option.some.injEq]
    omega
  · simp only [hp.loop, Option.map_some, RunLoop.isRunning, hdepth, Option.some.injEq]
    rw [Bool.eq_iff_iff]
    simp only [bne_iff_ne, ne_eq, Bool.or_eq_true, decide_eq_true_eq]
    omega

theorem panics_of_run (hc : c.loop = some l) {f : Fault} (h : (startLoop n).run c = (.error (.panic f), c')) :
    PanicsOut l c.events c' := by
  have hr := run_of_triple_cases (startLoop_frames l c.events n) (follows_init hc)
  rw [h] at hr
  obtain ⟨j, t, S, hp, hk⟩ := hr
  refine ⟨⟨j, t, S, hp.reaches, hp.frames, hp.loop⟩, ?_⟩
  rcases hk with hk | hfull
  · have hle := Starts.unwound_le_of_reaches hp.reaches
    -- the frame the start made, which the panic unwound, is still counted
    have hdepth : S.loop.depth = 1 + S.unwound := by
      simpa [hp.frames] using (Starts.laws_of_reaches hp.reaches).depth
    simp only [Counted, Starts.init, Nat.add_zero] at hk hle
    refine .inr ⟨by omega, ?_⟩
    simp only [hp.loop, Option.map_some, hdepth, Option.some.injEq]
    omega
  · exact .inl hfull

theorem waits_of_run (hc : c.loop = some l) (h : (startLoop n).run c = (.error .blocked, c')) :
    ∃ S fs, (Starts.init l).Reaches S ∧ S.frames = .idle :: fs ∧ c'.loop = some S.loop ∧
      S.loop.stopRequested = false ∧ S.loop.queue = [] := by
  have hr := run_of_triple_cases (startLoop_frames l c.events n) (follows_init hc)
  rw [h] at hr
  obtain ⟨extra, S, hp, -, hs, hq⟩ := hr
  exact ⟨S, extra, hp.reaches, by simpa using hp.frames, hp.loop, hs, hq⟩

theorem spent_of_run (hc : c.loop = some l) (h : (startLoop n).run c = (.error .outOfFuel, c')) :
    ∃ S, (Starts.init l).Reaches S ∧ c'.loop = some S.loop := by
  have hr := run_of_triple_cases (startLoop_frames l c.events n) (follows_init hc)
  rw [h] at hr
  obtain ⟨_, S, hp, -⟩ := hr
  exact ⟨S, hp.reaches, hp.loop⟩

end StartFromCode

theorem start_follows_frames (l : RunLoop Task) (c : Ctx) (hc : c.loop = some l) : StartRun l c where
  laws _ := Starts.laws_of_reaches
  nested S₀ e₀ := (frames_obligations S₀ e₀).holds
  returns _ _ h := returns_of_run hc h
  panics _ _ _ h := panics_of_run hc h
  waits _ _ h := waits_of_run hc h
  spent _ _ h := spent_of_run hc h
  stop_first hs n := startLoop_of_stopped hc hs n
  waits_at_once hs hq n := startLoop_of_empty hc hs hq n
  stops n _ _ hc₁ hs := spin_of_stopped hc₁ hs n

theorem fresh_start_follows_frames :
    ({ loop := some { channel := 0 } } : Ctx).loop = some { channel := 0 } ∧
      StartRun { channel := 0 } { loop := some { channel := 0 } } :=
  ⟨rfl, start_follows_frames _ _ rfl⟩

/-- A panic in a task unwinds out of the start that ran it, and leaves the loop running with no
start frame active: the frame it unwound is still counted in the depth. -/
theorem panic_leaves_loop_running :
    match (startLoop 5).run
      { loop := some
          { channel := 0
            tasks := #[some (.script "p" [.obj [("do", .str "panic")]] 0)]
            queue := [⟨0, 1⟩] } } with
    | (.error (.panic f), c) => f = .taskPanic ∧ c.loop.map RunLoop.isRunning = some true
    | _ => False :=
  ⟨rfl, rfl⟩

end Wire

end ChunkRuntime
