import Mathlib
import ChunkRuntime.Proofs.Dispatch
import ChunkRuntime.Proofs.Interpreter
import ChunkRuntime.Wire.Launch

/-! Launching a thread: set up, one run of the body, take down; with a run loop the body is the
loop's first dispatch, its root task. The body runs in a `Running` thread, which every function of
the interpreter keeps (`running_obligations`), so `spawn_runs_body_once`: a refused start never
runs the body, and otherwise the body runs once in a running thread. -/

open Std.Do

set_option mvcgen.warning false

namespace ChunkRuntime.RunLoop

variable {τ : Type}

theorem add_fresh (ch : Nat) (t : τ) :
    ({ channel := ch } : RunLoop τ).add t = (0, { channel := ch, tasks := #[some t] }) := by
  simp [RunLoop.add]

/-- A fresh loop whose one task has its completion queued dispatches that task first. -/
theorem next_first (ch : Nat) (t : τ) :
    ({ channel := ch, tasks := #[some t], queue := [⟨0, 0⟩], depth := 1 } : RunLoop τ).next =
      (.dispatch 0 0 t, { channel := ch, tasks := #[none], depth := 1 }) := rfl

theorem next_of_stopped {l : RunLoop τ} (h : l.stopRequested = true) : l.next = (.stop, l) := by
  simp [RunLoop.next, h]

@[simp] theorem putBack_stopRequested (l : RunLoop τ) (i : Nat) (t : τ) :
    (l.putBack i t).stopRequested = l.stopRequested := by
  unfold RunLoop.putBack
  split <;> rfl

/-- A loop asked to stop stops at its next turn, whatever a task put back meanwhile. -/
theorem next_stop_putBack (l : RunLoop τ) (i : Nat) (t : τ) :
    (l.stop.putBack i t).next = (.stop, l.stop.putBack i t) :=
  next_of_stopped (by simp [RunLoop.stop])

end ChunkRuntime.RunLoop

namespace ChunkRuntime.Wire

/-! ### A thread while its body runs -/

/-- A loop started at least `depth` times, none of whose slots holds a body's first run. -/
structure LoopOk (depth : Nat) (l : RunLoop Task) : Prop where
  started : depth ≤ l.depth
  noRoot : ∀ i : Nat, l.tasks[i]? ≠ some (some (Task.root true))

namespace LoopOk

variable {d : Nat} {l : RunLoop Task}

/-- Setting a slot to anything but a first run. -/
theorem set (h : LoopOk d l) {i : Nat} {x : Option Task} (hx : x ≠ some (Task.root true)) :
    LoopOk d { l with tasks := l.tasks.set! i x } := by
  refine ⟨h.started, fun j => ?_⟩
  simp only [Array.set!, Array.getElem?_setIfInBounds]
  split_ifs
  · simpa using hx
  · simp
  · exact h.noRoot j

theorem stop (h : LoopOk d l) : LoopOk d l.stop := ⟨h.started, h.noRoot⟩

theorem enqueue (h : LoopOk d l) (c : Completion) : LoopOk d (l.enqueue c) := ⟨h.started, h.noRoot⟩

theorem enter (h : LoopOk d l) : LoopOk (d + 1) l.enter := ⟨Nat.succ_le_succ h.started, h.noRoot⟩

theorem leave (h : LoopOk (d + 1) l) : LoopOk d l.leave :=
  ⟨Nat.le_sub_of_add_le h.started, h.noRoot⟩

theorem mono (h : LoopOk (d + 1) l) : LoopOk d l := ⟨Nat.le_of_succ_le h.started, h.noRoot⟩

theorem add (h : LoopOk d l) {t : Task} (ht : t ≠ .root true) : LoopOk d (l.add t).2 := by
  unfold RunLoop.add
  split
  · exact h.set (by simpa using ht)
  · refine ⟨h.started, fun j => ?_⟩
    rw [Array.getElem?_push]
    split_ifs
    · simpa using ht
    · exact h.noRoot j

theorem remove (h : LoopOk d l) (i : Nat) : LoopOk d (l.remove i).2 := by
  unfold RunLoop.remove
  split
  · exact h.set (by simp)
  · exact h

theorem next (h : LoopOk d l) : LoopOk d l.next.2 := by
  cases hs : l.stopRequested with
  | true => simpa [RunLoop.next, hs] using h
  | false =>
    cases hq : l.queue with
    | nil => simpa [RunLoop.next, hs, hq] using h
    | cons c rest =>
      -- the completion is taken off the queue, and its task, if any, out of its slot
      have hrest : LoopOk d { l with queue := rest } := ⟨h.started, h.noRoot⟩
      rw [RunLoop.next_of_cons l hq hs]
      split
      · exact hrest.set (by simp)
      · exact hrest

theorem putBack (h : LoopOk d l) (i : Nat) {t : Task} (ht : t ≠ .root true) : LoopOk d (l.putBack i t) := by
  unfold RunLoop.putBack
  split
  · exact h.set (by simpa using ht)
  · exact h

end LoopOk

/-- A thread while its body runs: launched and running, with its loop installed exactly when it
was launched with one, and that loop started at least `depth` times with no slot holding the
body's own first run. -/
structure Running (withLoop : Bool) (depth : Nat) (c : Ctx) : Prop where
  launch : c.launch = some .running
  installed : c.loop.isSome = withLoop
  loop : ∀ l, c.loop = some l → LoopOk depth l

namespace Running

variable {w : Bool} {d d' : Nat} {c c' : Ctx}

/-- Only the launch state and the loop matter. -/
theorem of_eq (h : Running w d c) (hl : c'.launch = c.launch) (hloop : c'.loop = c.loop) : Running w d c' :=
  ⟨hl.trans h.launch, hloop ▸ h.installed, hloop ▸ h.loop⟩

theorem map (h : Running w d c) {f : RunLoop Task → RunLoop Task} (hf : ∀ l, LoopOk d l → LoopOk d' (f l)) :
    Running w d' { c with loop := c.loop.map f } := by
  refine ⟨h.launch, by simpa using h.installed, fun l hl => ?_⟩
  obtain ⟨l₀, h₀, rfl⟩ := Option.map_eq_some_iff.1 hl
  exact hf l₀ (h.loop l₀ h₀)

theorem of_loop (h : Running w d c) {l l' : RunLoop Task} (hc : c.loop = some l) (hl : c'.launch = c.launch)
    (hloop : c'.loop = some l') (hok : LoopOk d l → LoopOk d' l') : Running w d' c' := by
  refine ⟨hl.trans h.launch, by rw [hloop, ← h.installed, hc]; rfl, fun l₁ h₁ => ?_⟩
  rw [hloop, Option.some.injEq] at h₁
  exact h₁ ▸ hok (h.loop l hc)

theorem mono (h : Running w (d + 1) c) : Running w d c :=
  ⟨h.launch, h.installed, fun l hl => (h.loop l hl).mono⟩

/-- Taking the next thing to do off the loop. -/
theorem next (h : Running w d c) {l : RunLoop Task} (hc : c.loop = some l) :
    Running w d { c with loop := some l.next.2 } :=
  h.of_loop hc rfl rfl LoopOk.next

/-- The body's first run marks the thread running, as it already is. -/
theorem relaunch (h : Running w d c) : Running w d { c with launch := some .running } :=
  h.of_eq h.launch.symm rfl

end Running

/-! ### What every step of the interpreter keeps -/

section Specs

variable {w : Bool} {d : Nat}

theorem stop_spec :
    ⦃fun c => ⌜Running w d c⌝⦄ modifyLoop RunLoop.stop ⦃post⟨fun _ c => ⌜Running w d c⌝, fun _ c => ⌜Running w d c⌝⟩⦄ := by
  mvcgen [modifyLoop]
  exact Running.map (by assumption) fun _ h => h.stop

theorem addTask_spec {t : Task} (ht : t ≠ .root true) :
    ⦃fun c => ⌜Running w d c⌝⦄ addTask t ⦃post⟨fun _ c => ⌜Running w d c⌝, fun _ c => ⌜Running w d c⌝⟩⦄ := by
  mvcgen [addTask]
  exact Running.of_loop (by assumption) (by assumption) (by rfl) (by rfl) fun h => h.add ht

theorem completeTask_spec (id : Nat) (status : Int) :
    ⦃fun c => ⌜Running w d c⌝⦄ completeTask id status ⦃post⟨fun _ c => ⌜Running w d c⌝, fun _ c => ⌜Running w d c⌝⟩⦄ := by
  mvcgen [completeTask]
  exact Running.of_loop (by assumption) (by assumption) (by rfl) (by rfl) fun h => h.enqueue _

/-- A task read from an action is a one-shot or a script, never a body's first run. -/
theorem readTask_ne_root {a : Json.Value} {t : Task} (h : readTask a = .ok t) : t ≠ .root true := by
  rintro rfl
  unfold readTask at h
  rcases hf : a.field? "task" with _ | v <;> simp only [hf] at h
  · cases h
  · rcases hn : strField v "name" with e | name <;> simp only [hn, bind, Except.bind] at h
    · cases h
    · split at h
      · cases h
      · rcases hs : optionalArrField v "script" with e | scr <;> simp only [hs] at h <;> cases h

theorem basicAction_spec (info : RunInfo) (op : String) (a : Json.Value) :
    ⦃fun c => ⌜Running w d c⌝⦄ basicAction info op a ⦃post⟨fun _ c => ⌜Running w d c⌝, fun _ c => ⌜Running w d c⌝⟩⦄ := by
  mvcgen [basicAction, withLoop, withField, stop_spec, addTask_spec, completeTask_spec]
  · exact readTask_ne_root (by assumption)
  · exact Running.of_loop (by assumption) (by assumption) (by rfl) (by rfl) fun h => h.remove _

/-- A body's name and the exit callbacks it registers leave the launch state and the loop alone. -/
theorem bodyOnly_spec {op : String} {a : Json.Value} {act : Run Json.Value} (hact : bodyOnlyAction op a = some act) :
    ⦃fun c => ⌜Running w d c⌝⦄ act ⦃post⟨fun _ c => ⌜Running w d c⌝, fun _ c => ⌜Running w d c⌝⟩⦄ := by
  unfold bodyOnlyAction at hact
  split at hact
  · cases hact
    mvcgen
  · split at hact
    · cases hact
      mvcgen
      exact Running.of_eq (by assumption) (by rfl) (by rfl)
    · cases hact

end Specs

/-- A running thread as an invariant of the interpreter: its code keeps it running with its loop
started at least `d` times, once more while the frame of a start it makes is active, whatever
unwinds. -/
def running (w : Bool) : Invariant Nat where
  code d := Running w d
  idle d := Running w (d + 1)
  stopping d := Running w (d + 1)
  returned d := Running w d
  answered d _ := Running w d
  halted d _ := Running w d
  unwound d _ := Running w d
  run d _ _ := d + 1

theorem running_obligations (w : Bool) : (running w).Obligations where
  note _ _ _ _ hc _ := Running.of_eq hc rfl rfl
  record _ _ _ _ _ hc _ := Running.of_eq hc rfl rfl
  full _ _ hc _ := hc
  fullRecord _ _ _ hc _ := hc
  stop _ _ hc := Running.map hc fun _ h => h.stop
  relaunch _ _ hc := Running.relaunch hc
  panic _ _ hc := hc
  refuse _ _ _ hc := hc
  basic _ := basicAction_spec
  bodyOnly _ _ _ _ := bodyOnly_spec
  enter _ _ hc := Running.map hc fun _ h => h.enter
  noLoop _ _ hc _ := Running.mono hc
  turnStop _ _ _ hc hl _ := Running.next hc hl
  turnWait _ _ _ hc hl _ := (Running.next hc hl).mono
  turnSkip _ _ _ hc hl _ := Running.next hc hl
  turnDispatch _ _ _ _ _ _ hc hl _ := Running.next hc hl
  putBack _ _ _ _ _ hc ht := Running.map hc fun _ h => h.putBack _ ht
  taskUnwound _ _ _ _ _ hc := Running.mono hc
  leave _ _ hc := Running.map hc fun _ h => h.leave
  returns _ _ hc := hc
  caught _ _ _ hc := hc
  waits _ _ hc := hc
  spent _ _ hc := hc
  codeFuel _ _ hc := hc
  startFuel _ _ hc := hc
  idleFuel _ _ hc := Running.mono hc

/-- A body keeps its thread running, at every fuel. -/
theorem Running.runBody {w : Bool} {d : Nat} {c : Ctx} (hc : Running w d c) (fuel : Nat) (acts : List Json.Value) :
    Running w d ((Wire.runBody fuel acts).run c).2 :=
  run_of_triple (((running_obligations w).holds fuel).runBody d acts) hc

/-! ### One turn of the interpreter -/

section Steps

variable {n : Nat} {c : Ctx}

theorem startLoop_run : (Wire.startLoop (n + 1)).run c =
    match (spin n).run { c with loop := c.loop.map RunLoop.enter } with
    | (.ok (), c') => (.ok (), { c' with loop := c'.loop.map RunLoop.leave })
    | (.error e, c') => (.error e, c') := by
  simp only [Wire.startLoop, modifyLoop, run_bind, run_modify]
  rcases (spin n).run { c with loop := c.loop.map RunLoop.enter } with ⟨_ | ⟨⟩, c'⟩ <;> rfl

/-- One turn of a started loop: take the next thing to do, and do it. -/
theorem spin_run : (spin (n + 1)).run c =
    match c.loop with
    | none => (.error .blocked, c)
    | some l =>
      match l.next with
      | (.stop, l') => (.ok (), { c with loop := some l' })
      | (.wait, l') => (.error .blocked, { c with loop := some l' })
      | (.skip, l') => (spin n).run { c with loop := some l' }
      | (.dispatch i s t, l') =>
        match (runTask n t s).run { c with loop := some l' } with
        | (.ok t', c') => (spin n).run { c' with loop := c'.loop.map (·.putBack i t') }
        | (.error e, c') => (.error e, c') := by
  simp only [spin, run_get_bind]
  rcases c.loop with _ | l
  · rfl
  · rcases hn : l.next with ⟨_ | _ | _ | ⟨i, s, t⟩, l'⟩
    · simp only [hn, run_bind, run_set]
      rfl
    · simp only [hn, run_bind, run_set, run_throw]
    · simp only [hn, run_bind, run_set]
    · simp only [hn, run_bind, run_set, modifyLoop, run_modify]
      rcases (runTask n t s).run { c with loop := some l' } with ⟨_ | t', c'⟩ <;> rfl

theorem runTask_root_run {s : Int} :
    (runTask (n + 1) (.root true) s).run c =
      match (runBody n c.body).run { c with launch := some .running } with
      | (.ok (), c') => (.ok (.root false), { c' with loop := c'.loop.map RunLoop.stop })
      | (.error e, c') => (.error e, c') := by
  simp only [runTask, if_true, run_bind, run_modify, run_get, modifyLoop]
  rcases (runBody n c.body).run { c with launch := some .running } with ⟨_ | ⟨⟩, c'⟩ <;> rfl

end Steps

/-! ### The launch -/

/-- The fuel a thread's body gets: all of it without a loop; with one, what is left after starting
the loop, taking the first completion and running the root task. -/
def bodyFuel (withLoop : Bool) : Nat := if withLoop then threadFuel - 3 else threadFuel

/-- The thread as its body starts: running, with (when it has one) a fresh loop started once whose
only task, the root, is out of its slot, running. -/
def startCtx (withLoop : Bool) (c : Ctx) : Ctx :=
  if withLoop then
    { c with
      loop := some { channel := c.channels, tasks := #[none], depth := 1 }
      channels := c.channels + 1
      launch := some .running }
  else { c with launch := some .running }

/-- The thread after its body: on a return the loop is gone and the thread terminated; an unwind
leaves everything as it struck. -/
def finish : Except Unwind Unit × Ctx → Except Unwind Unit × Ctx
  | (.ok (), c) => (.ok (), { c with loop := none, launch := some .terminated })
  | (.error e, c) => (.error e, c)

theorem startCtx_running (w : Bool) (c : Ctx) (hc : c.loop = none) : Running w 1 (startCtx w c) := by
  cases w with
  | false => exact ⟨rfl, by simp [startCtx, hc], fun l hl => by simp [startCtx, hc] at hl⟩
  | true =>
    refine ⟨rfl, rfl, fun l hl => ?_⟩
    simp only [startCtx, if_true, Option.some.injEq] at hl
    subst hl
    refine ⟨Nat.le_refl _, fun i => ?_⟩
    cases i <;> simp

theorem launchpad_loop_run (c : Ctx) (hc : c.loop = none) :
    (launchpad true).run c = finish ((runBody (bodyFuel true) c.body).run (startCtx true c)) := by
  -- a fresh loop goes in with the root task and its completion, and starts
  simp only [launchpad, installLoop, Bool.not_true, Bool.false_eq_true, if_false, run_bind, run_modify,
    run_get, run_set, run_pure, hc, Option.isSome_none, modifyLoop]
  rw [show threadFuel = 999999 + 1 from rfl, startLoop_run]
  simp only [Option.map_some, RunLoop.add_fresh, RunLoop.enqueue, RunLoop.enter, List.nil_append, Nat.zero_add]
  -- its first dispatch is the root task, which runs the body
  rw [show 999999 = 999998 + 1 from rfl, spin_run]
  simp only [RunLoop.next_first]
  rw [show 999998 = 999997 + 1 from rfl, runTask_root_run]
  have hstart := (startCtx_running true c hc).runBody 999997 c.body
  simp only [startCtx, bodyFuel, if_true, threadFuel] at hstart ⊢
  generalize ExceptT.run (runBody 999997 c.body) _ = r at hstart ⊢
  rcases r with ⟨_ | ⟨⟩, c₁⟩
  · rfl
  · -- the root task stops the loop, which then stops at once and is taken down
    obtain ⟨l₁, hl₁⟩ := Option.isSome_iff_exists.1 hstart.installed
    dsimp only at hl₁ ⊢
    rw [spin_run]
    simp only [hl₁, Option.map_some, RunLoop.next_stop_putBack]
    rfl

theorem launchpad_plain_run (c : Ctx) (hc : c.loop = none) :
    (launchpad false).run c = finish ((runBody (bodyFuel false) c.body).run (startCtx false c)) := by
  have hstart := (startCtx_running false c hc).runBody threadFuel c.body
  simp only [launchpad, Bool.not_false, if_true, run_bind, run_modify, run_get]
  simp only [startCtx, bodyFuel, Bool.false_eq_true, if_false] at hstart ⊢
  generalize ExceptT.run (runBody threadFuel c.body) _ = r at hstart ⊢
  rcases r with ⟨_ | ⟨⟩, c₁⟩
  · rfl
  · -- without a loop the body cannot install one
    have h0 : c₁.loop = none := Option.not_isSome_iff_eq_none.1 (by simpa using hstart.installed)
    simp only [finish, h0]

theorem launchpad_run (w : Bool) (c : Ctx) (hc : c.loop = none) :
    (launchpad w).run c = finish ((runBody (bodyFuel w) c.body).run (startCtx w c)) := by
  cases w with
  | false => exact launchpad_plain_run c hc
  | true => exact launchpad_loop_run c hc

theorem runThread_eq (w : Bool) (c : Ctx) (hc : c.loop = none) :
    runThread c w = match (runBody (bodyFuel w) c.body).run (startCtx w c) with
      | (.ok (), c₁) => (some false, (exitCallbacks.run { c₁ with loop := none, launch := some .terminated }).2)
      | (.error (.panic _), c₁) => (some true, (exitCallbacks.run { c₁ with loop := none }).2)
      | (.error _, c₁) => (none, c₁) := by
  unfold runThread
  rw [launchpad_run w c hc]
  rcases (runBody (bodyFuel w) c.body).run (startCtx w c) with ⟨e | ⟨⟩, c₁⟩
  · cases e <;> rfl
  · rfl

section Answers

variable {w : Bool} {d : Nat} {c : Ctx}

theorem Running.currentValue_eq (h : Running w d c) (hd : 1 ≤ d) :
    currentValue c = Json.object [("installed", .bool w), ("running", .bool w)] := by
  have hi := h.installed
  cases hl : c.loop with
  | none =>
    rw [hl] at hi
    subst hi
    simp [currentValue, hl]
  | some l =>
    rw [hl] at hi
    subst hi
    have hpos : (l.depth != 0) = true := bne_iff_ne.2 (by have := (h.loop l hl).started; omega)
    simp [currentValue, hl, RunLoop.isRunning, hpos]

theorem Running.state_answer (h : Running w d c) {n : Nat} {info : RunInfo} {a : Json.Value}
    (hop : strField a "do" = .ok "state") :
    (runAction (n + 1) info a).run c = (.ok (.str "Running"), c) := by
  simp [runAction, hop, basicAction, h.launch, LaunchState.name]

theorem Running.current_answer (h : Running w d c) (hd : 1 ≤ d) {n : Nat} {info : RunInfo} {a : Json.Value}
    (hop : strField a "do" = .ok "current") :
    (runAction (n + 1) info a).run c =
      (.ok (Json.object [("installed", .bool w), ("running", .bool w)]), c) := by
  simp [runAction, hop, basicAction]
  rw [← h.currentValue_eq hd]
  rfl

end Answers

/-! ### Starting a thread -/

/-- What starting a thread does, on a system that `commits` the stacks it grants. -/
structure Launches (commits : Nat → Bool) (name : Option String) (stack : Option Nat) (withLoop : Bool)
    (body : List Json.Value) : Prop where
  /-- A refused name or stack refuses the start: the body never runs. -/
  refused : ∀ h, checkSpawn commits name stack = .error h → spawn commits name stack withLoop body = .error h
  /-- A stack the system cannot give is refused as a failed spawn. -/
  noStack : ∀ s errno, stack = some s → stackFits commits (max s stackMin) = .error errno →
    (∀ n, name = some n → checkThreadName n = .ok ()) →
      checkSpawn commits name stack = .error (.error (.spawn errno))
  /-- The launch is one run of the body between a fixed setup and teardown. -/
  once : (launchpad withLoop).run { threadName := name, body } =
    finish ((runBody (bodyFuel withLoop) body).run (startCtx withLoop { threadName := name, body }))
  /-- A started thread's exit callbacks find the loop gone; a panic is reported to the joiner. -/
  started : checkSpawn commits name stack = .ok () →
    spawn commits name stack withLoop body =
      .ok (match (runBody (bodyFuel withLoop) body).run (startCtx withLoop { threadName := name, body }) with
        | (.ok (), c) => (some false, (exitCallbacks.run { c with loop := none, launch := some .terminated }).2)
        | (.error (.panic _), c) => (some true, (exitCallbacks.run { c with loop := none }).2)
        | (.error _, c) => (none, c))
  /-- The body starts in a running thread, and everything it does keeps it so. -/
  start : Running withLoop 1 (startCtx withLoop { threadName := name, body })
  keeps : ∀ fuel acts c, Running withLoop 1 c → Running withLoop 1 ((runBody fuel acts).run c).2
  /-- Meanwhile the launch state reads Running, and the loop installed and running when it has one. -/
  state : ∀ fuel info a c, Running withLoop 1 c → strField a "do" = .ok "state" →
    (runAction (fuel + 1) info a).run c = (.ok (.str "Running"), c)
  current : ∀ fuel info a c, Running withLoop 1 c → strField a "do" = .ok "current" →
    (runAction (fuel + 1) info a).run c =
      (.ok (Json.object [("installed", .bool withLoop), ("running", .bool withLoop)]), c)

theorem spawn_runs_body_once (commits : Nat → Bool) (name : Option String) (stack : Option Nat)
    (withLoop : Bool) (body : List Json.Value) : Launches commits name stack withLoop body where
  refused h hc := by simp [spawn, hc, bind, Except.bind]
  noStack s errno hs hfit hname := by
    subst hs
    cases name with
    | none =>
      unfold checkSpawn
      dsimp only
      rw [hfit]
      rfl
    | some n =>
      unfold checkSpawn
      dsimp only
      rw [hname n rfl, hfit]
      rfl
  once := launchpad_run withLoop _ rfl
  started hc := by
    simp only [spawn, hc, bind, Except.bind, pure, Except.pure]
    rw [runThread_eq withLoop _ rfl]
  start := startCtx_running withLoop _ rfl
  keeps fuel acts _ hc := hc.runBody fuel acts
  state _ _ _ _ hc hop := hc.state_answer hop
  current _ _ _ _ hc hop := hc.current_answer (Nat.le_refl 1) hop

end ChunkRuntime.Wire
