import Mathlib
import ChunkRuntime.Wire.Tasks

/-! What every function of the task interpreter keeps. A property of a thread is given by where
the thread stands (`Invariant`): its own code running at an index `i`, a start's frame above `i`
about to turn or having found a stop, a start returned, an action answered, and what may unwind
out of the code and out of a start; a task that a start at `i` dispatches runs at `run i j t`.
`Invariant.Obligations` asks of each call the interpreter makes on the thread (a log entry, a
change to the loop, a turn, a catch, running out of steps) that it leads from one of these to the
next. From them, `Invariant.Obligations.holds` gives a triple for every function at every fuel,
by induction on the fuel over the mutual recursion. -/

open Std.Do

set_option mvcgen.warning false

namespace ChunkRuntime.Wire

/-! ### Runs of a thread's computations -/

section RunLemmas

variable {α β : Type} (c : Ctx)

@[simp] theorem run_pure (a : α) : (pure a : Run α).run c = (.ok a, c) := rfl

@[simp] theorem run_throw (e : Unwind) : (throw e : Run α).run c = (.error e, c) := rfl

@[simp] theorem run_get_bind (f : Ctx → Run α) : (get >>= f).run c = (f c).run c := rfl

@[simp] theorem run_get : (get : Run Ctx).run c = (.ok c, c) := rfl

@[simp] theorem run_set (c' : Ctx) : (set c' : Run PUnit).run c = (.ok (), c') := rfl

@[simp] theorem run_modify (g : Ctx → Ctx) : (modify g : Run PUnit).run c = (.ok (), g c) := rfl

theorem run_bind (m : Run α) (f : α → Run β) : (m >>= f).run c = match m.run c with
    | (.ok a, c') => (f a).run c'
    | (.error e, c') => (.error e, c') := by
  change StateT.run (ExceptT.run (m >>= f)) c = _
  rw [ExceptT.run_bind, StateT.run_bind]
  rcases h : m.run c with ⟨_ | a, c'⟩ <;>
  · rw [show StateT.run (ExceptT.run m) c = _ from h]
    rfl

end RunLemmas

/-- What a triple with a postcondition for each way out promises of the run. -/
theorem run_of_triple_cases {α : Type} {P : Ctx → Prop} {Q : α → Ctx → Prop} {E : Unwind → Ctx → Prop} {m : Run α}
    (h : ⦃fun c => ⌜P c⌝⦄ m ⦃post⟨fun a c => ⌜Q a c⌝, fun u c => ⌜E u c⌝⟩⦄) {c : Ctx} (hc : P c) :
    match m.run c with
    | (.ok a, c') => Q a c'
    | (.error u, c') => E u c' := by
  have hw := h c hc
  simp only [WP.wp, PredTrans.apply_pushExcept, PredTrans.apply_pushArg] at hw
  rcases hr : m.run c with ⟨_ | a, c'⟩ <;>
  · rw [show StateT.run (ExceptT.run m) c = _ from hr] at hw
    exact hw

/-- What a triple promises of the state a run ends in. -/
theorem run_of_triple {α : Type} {P Q : Ctx → Prop} {m : Run α}
    (h : ⦃fun c => ⌜P c⌝⦄ m ⦃post⟨fun _ c => ⌜Q c⌝, fun _ c => ⌜Q c⌝⟩⦄) {c : Ctx} (hc : P c) :
    Q (m.run c).2 := by
  have hw := run_of_triple_cases h hc
  rcases hr : m.run c with ⟨_ | a, c'⟩ <;> rw [hr] at hw <;> exact hw

/-! ### What the interpreter logs and answers -/

section Entries

open Json

/-- The entries a task logs of its runs and of a body's panic record no result. -/
theorem once_entry (name : String) : (object [("once", .str name)]).field? "r" = none := by
  simp [object, Value.sortedFields, Value.field?]

theorem run_entry (name : String) (status : Int) (n : Nat) :
    (object [("run", .str name), ("status", Value.ofInt status), ("n", .nat n)]).field? "r" = none := by
  simp [object, Value.sortedFields, Value.field?]

theorem panic_entry : (object [("do", .str "panic")]).field? "r" = none := by
  simp [object, Value.sortedFields, Value.field?]

/-- The entries a script and a body log of an action record its result. -/
theorem script_entry (name : String) (r : Value) : (object [("in", .str name), ("r", r)]).field? "r" = some r := by
  simp only [object, Value.sortedFields, Value.field?, List.reverse_cons, List.reverse_nil]
  rw [List.mergeSort_of_pairwise (by simp)]
  simp

theorem body_entry (op r : Value) : (object [("do", op), ("r", r)]).field? "r" = some r := by
  simp only [object, Value.sortedFields, Value.field?, List.reverse_cons, List.reverse_nil]
  rw [List.mergeSort_of_pairwise (by simp)]
  simp

/-- A field read fails only with a refusal. -/
theorem field_error {α : Type} {req : Value} {key : String} {k : Kind} {get : Value → Option α} {f : Failure}
    (h : field req key k get = .error f) : ∃ m, f = .refused m := by
  unfold field at h
  split at h
  · cases h
  · cases h
    exact ⟨_, rfl⟩

theorem int32Field_error {req : Value} {key : String} {f : Failure} (h : int32Field req key = .error f) :
    ∃ m, f = .refused m := by
  unfold int32Field intField at h
  rcases hi : field req key .integer Value.integer? with e | i <;> rw [hi] at h
  · cases h
    exact field_error hi
  · simp only [bind, Except.bind] at h
    split at h
    · cases h
    · cases h
      exact ⟨_, rfl⟩

theorem optionalArrField_error {req : Value} {key : String} {f : Failure}
    (h : optionalArrField req key = .error f) : ∃ m, f = .refused m := by
  unfold optionalArrField at h
  split at h
  · cases h
  · exact field_error h

theorem readTask_error {req : Value} {f : Failure} (h : readTask req = .error f) : ∃ m, f = .refused m := by
  unfold readTask at h
  rcases ht : req.field? "task" with _ | v <;> simp only [ht] at h
  · cases h
    exact ⟨_, rfl⟩
  · rcases hn : strField v "name" with e | name <;> simp only [hn, bind, Except.bind] at h
    · cases h
      exact field_error hn
    · split at h
      · cases h
      · rcases hs : optionalArrField v "script" with e | xs <;> simp only [hs] at h
        · cases h
          exact optionalArrField_error hs
        · cases h

end Entries

/-! ### Invariants of the interpreter -/

/-- A property of a thread, by where in the interpreter it stands: the thread's code runs at `i`
(`code`); the frame of a start made there is about to turn (`idle`) or has found a stop asked for
(`stopping`); the start returned (`returned`); an action answered `r` (`answered`); what
unwinds out of the code (`halted`) and out of a start (`unwound`). A task that a start at `i`
takes from slot `j` runs at `run i j t`. -/
structure Invariant (ι : Type) where
  code : ι → Ctx → Prop
  idle : ι → Ctx → Prop
  stopping : ι → Ctx → Prop
  returned : ι → Ctx → Prop
  answered : ι → Json.Value → Ctx → Prop
  halted : ι → Unwind → Ctx → Prop
  unwound : ι → Unwind → Ctx → Prop
  run : ι → Nat → Task → ι

namespace Invariant

variable {ι : Type} (I : Invariant ι)

/-- What each call the interpreter makes on the thread must do: logging an entry that records no
result, or one that records an action's answer, or finding the log full; stopping the loop and
marking the thread running; a panic of the thread's code; a refusal as an answer; every action
but a start, and every action only a body has; entering a start; each kind of turn; putting a
task back; what unwinds out of a task unwinding out of the start that ran it; leaving a start;
a start action answering its start's return or the panic it caught, and passing on anything
else; and running out of steps. -/
structure Obligations : Prop where
  note : ∀ i v c, v.field? "r" = none → I.code i c → c.events.size < eventLimit →
    I.code i { c with events := c.events.push v }
  record : ∀ i v r c, v.field? "r" = some r → I.answered i r c → c.events.size < eventLimit →
    I.code i { c with events := c.events.push v }
  full : ∀ i c, I.code i c → eventLimit ≤ c.events.size → I.halted i (.panic .eventLimit) c
  fullRecord : ∀ i r c, I.answered i r c → eventLimit ≤ c.events.size → I.halted i (.panic .eventLimit) c
  stop : ∀ i c, I.code i c → I.code i { c with loop := c.loop.map RunLoop.stop }
  relaunch : ∀ i c, I.code i c → I.code i { c with launch := some .running }
  panic : ∀ i c, I.code i c → I.halted i (.panic .taskPanic) c
  refuse : ∀ i m c, I.code i c → I.answered i (Failure.refused m).toValue c
  basic : ∀ i info op a, ⦃fun c => ⌜I.code i c⌝⦄ basicAction info op a
    ⦃post⟨fun r c => ⌜I.answered i r c⌝, fun u c => ⌜I.halted i u c⌝⟩⦄
  bodyOnly : ∀ i op a act, bodyOnlyAction op a = some act →
    ⦃fun c => ⌜I.code i c⌝⦄ act ⦃post⟨fun r c => ⌜I.answered i r c⌝, fun u c => ⌜I.halted i u c⌝⟩⦄
  enter : ∀ i c, I.code i c → I.idle i { c with loop := c.loop.map RunLoop.enter }
  noLoop : ∀ i c, I.idle i c → c.loop = none → I.unwound i .blocked c
  turnStop : ∀ i c l, I.idle i c → c.loop = some l → l.next.1 = .stop →
    I.stopping i { c with loop := some l.next.2 }
  turnWait : ∀ i c l, I.idle i c → c.loop = some l → l.next.1 = .wait →
    I.unwound i .blocked { c with loop := some l.next.2 }
  turnSkip : ∀ i c l, I.idle i c → c.loop = some l → l.next.1 = .skip →
    I.idle i { c with loop := some l.next.2 }
  turnDispatch : ∀ i c l j s t, I.idle i c → c.loop = some l → l.next.1 = .dispatch j s t →
    I.code (I.run i j t) { c with loop := some l.next.2 }
  putBack : ∀ i j t t' c, I.code (I.run i j t) c → t' ≠ .root true →
    I.idle i { c with loop := c.loop.map (·.putBack j t') }
  taskUnwound : ∀ i j t u c, I.halted (I.run i j t) u c → I.unwound i u c
  leave : ∀ i c, I.stopping i c → I.returned i { c with loop := c.loop.map RunLoop.leave }
  returns : ∀ i c, I.returned i c → I.answered i (.str "returned") c
  caught : ∀ i f c, I.unwound i (.panic f) c → I.answered i (Failure.fault f).toValue c
  waits : ∀ i c, I.unwound i .blocked c → I.halted i .blocked c
  spent : ∀ i c, I.unwound i .outOfFuel c → I.halted i .outOfFuel c
  codeFuel : ∀ i c, I.code i c → I.halted i .outOfFuel c
  startFuel : ∀ i c, I.code i c → I.unwound i .outOfFuel c
  idleFuel : ∀ i c, I.idle i c → I.unwound i .outOfFuel c

/-- The triples of every function of the interpreter at `fuel`: a start returns or unwinds from
the thread's code, a turn loop from an idle frame ends with a stop found, and a task, a script,
an action and a body run from the thread's code back to it; a task comes back as anything but a
body's first run. -/
structure Holds (fuel : Nat) : Prop where
  startLoop : ∀ i, ⦃fun c => ⌜I.code i c⌝⦄ startLoop fuel
    ⦃post⟨fun _ c => ⌜I.returned i c⌝, fun u c => ⌜I.unwound i u c⌝⟩⦄
  spin : ∀ i, ⦃fun c => ⌜I.idle i c⌝⦄ spin fuel
    ⦃post⟨fun _ c => ⌜I.stopping i c⌝, fun u c => ⌜I.unwound i u c⌝⟩⦄
  runTask : ∀ i t s, ⦃fun c => ⌜I.code i c⌝⦄ runTask fuel t s
    ⦃post⟨fun t c => ⌜I.code i c ∧ t ≠ .root true⌝, fun u c => ⌜I.halted i u c⌝⟩⦄
  runScript : ∀ i name info acts, ⦃fun c => ⌜I.code i c⌝⦄ runScript fuel name info acts
    ⦃post⟨fun _ c => ⌜I.code i c⌝, fun u c => ⌜I.halted i u c⌝⟩⦄
  runAction : ∀ i info a, ⦃fun c => ⌜I.code i c⌝⦄ runAction fuel info a
    ⦃post⟨fun r c => ⌜I.answered i r c⌝, fun u c => ⌜I.halted i u c⌝⟩⦄
  runBody : ∀ i acts, ⦃fun c => ⌜I.code i c⌝⦄ runBody fuel acts
    ⦃post⟨fun _ c => ⌜I.code i c⌝, fun u c => ⌜I.halted i u c⌝⟩⦄

variable {I}

namespace Obligations

variable {n : Nat}

/-! The calls, as triples. -/

theorem emit_note (h : I.Obligations) (i : ι) {v : Json.Value} (hv : v.field? "r" = none) :
    ⦃fun c => ⌜I.code i c⌝⦄ emit v ⦃post⟨fun _ c => ⌜I.code i c⌝, fun u c => ⌜I.halted i u c⌝⟩⦄ := by
  mvcgen [emit]
  · exact h.full i _ (by assumption) (by assumption)
  · exact h.note i v _ hv (by assumption) (by omega)

theorem emit_record (h : I.Obligations) (i : ι) {v r : Json.Value} (hv : v.field? "r" = some r) :
    ⦃fun c => ⌜I.answered i r c⌝⦄ emit v ⦃post⟨fun _ c => ⌜I.code i c⌝, fun u c => ⌜I.halted i u c⌝⟩⦄ := by
  mvcgen [emit]
  · exact h.fullRecord i r _ (by assumption) (by assumption)
  · exact h.record i v r _ hv (by assumption) (by omega)

theorem stop_spec (h : I.Obligations) (i : ι) :
    ⦃fun c => ⌜I.code i c⌝⦄ modifyLoop RunLoop.stop
      ⦃post⟨fun _ c => ⌜I.code i c⌝, fun u c => ⌜I.halted i u c⌝⟩⦄ := by
  mvcgen [modifyLoop]
  exact h.stop i _ (by assumption)

/-! Each function at `n + 1`, from the triples at `n`. -/

theorem startLoop_succ (h : I.Obligations) (ih : I.Holds n) (i : ι) :
    ⦃fun c => ⌜I.code i c⌝⦄ Wire.startLoop (n + 1)
      ⦃post⟨fun _ c => ⌜I.returned i c⌝, fun u c => ⌜I.unwound i u c⌝⟩⦄ := by
  have hs := ih.spin i
  mvcgen [Wire.startLoop, modifyLoop, hs]
  · exact h.enter i _ (by assumption)
  · exact h.leave i _ (by assumption)

theorem spin_succ (h : I.Obligations) (ih : I.Holds n) (i : ι) :
    ⦃fun c => ⌜I.idle i c⌝⦄ Wire.spin (n + 1)
      ⦃post⟨fun _ c => ⌜I.stopping i c⌝, fun u c => ⌜I.unwound i u c⌝⟩⦄ := by
  have hs := ih.spin i
  have ht := fun j t s => ih.runTask (I.run i j t) t s
  mvcgen [Wire.spin, modifyLoop, hs, ht]
  · exact h.noLoop i _ (by assumption) (by assumption)
  · exact h.turnStop i _ _ (by assumption) (by assumption) (by assumption)
  · exact h.turnWait i _ _ (by assumption) (by assumption) (by assumption)
  · exact h.turnSkip i _ _ (by assumption) (by assumption) (by assumption)
  · exact h.turnDispatch i _ _ _ _ _ (by assumption) (by assumption) (by assumption)
  · -- the task goes back into its slot, and the frame turns again
    next hrun _ => exact h.putBack i _ _ _ _ hrun.1 hrun.2
  · exact h.taskUnwound i _ _ _ _

theorem runTask_succ (h : I.Obligations) (ih : I.Holds n) (i : ι) (t : Task) (s : Int) :
    ⦃fun c => ⌜I.code i c⌝⦄ Wire.runTask (n + 1) t s
      ⦃post⟨fun t c => ⌜I.code i c ∧ t ≠ .root true⌝, fun u c => ⌜I.halted i u c⌝⟩⦄ := by
  have hstop := h.stop_spec i
  cases t with
  | once name pending =>
    have he := h.emit_note i (once_entry name)
    simp only [Wire.runTask]
    mvcgen [he, hstop]
    all_goals exact ⟨by assumption, nofun⟩
  | root pending =>
    have hb := ih.runBody i
    simp only [Wire.runTask]
    mvcgen [hb, hstop]
    · exact h.relaunch i _ (by assumption)
    all_goals exact ⟨by assumption, nofun⟩
  | script name acts runs =>
    have he := h.emit_note i (run_entry name s (runs + 1))
    have hs := ih.runScript i name ⟨s, runs + 1⟩ acts
    simp only [Wire.runTask]
    mvcgen [he, hs]
    exact ⟨by assumption, nofun⟩

theorem runScript_succ (h : I.Obligations) (ih : I.Holds n) (i : ι) (name : String) (info : RunInfo)
    (acts : List Json.Value) :
    ⦃fun c => ⌜I.code i c⌝⦄ Wire.runScript (n + 1) name info acts
      ⦃post⟨fun _ c => ⌜I.code i c⌝, fun u c => ⌜I.halted i u c⌝⟩⦄ := by
  have ha := ih.runAction i info
  have he := fun r => h.emit_record i (script_entry name r)
  have hs := ih.runScript i name info
  cases acts with
  | nil =>
    simp only [Wire.runScript]
    mvcgen
  | cons a rest =>
    simp only [Wire.runScript]
    mvcgen [ha, he, hs]

theorem runAction_succ (h : I.Obligations) (ih : I.Holds n) (i : ι) (info : RunInfo) (a : Json.Value) :
    ⦃fun c => ⌜I.code i c⌝⦄ Wire.runAction (n + 1) info a
      ⦃post⟨fun r c => ⌜I.answered i r c⌝, fun u c => ⌜I.halted i u c⌝⟩⦄ := by
  have hl := ih.startLoop i
  have hb := h.basic i info
  simp only [Wire.runAction]
  mvcgen [withLoop, hl, hb]
  · -- an action that names none is refused
    next f hf _ hc =>
    obtain ⟨m, rfl⟩ := field_error hf
    exact h.refuse i m _ hc
  · exact h.returns i _ (by assumption)
  · exact h.caught i _ _ (by assumption)
  · exact h.waits i _ (by assumption)
  · exact h.spent i _ (by assumption)
  · exact h.refuse i _ _ (by assumption)

theorem runBody_succ (h : I.Obligations) (ih : I.Holds n) (i : ι) (acts : List Json.Value) :
    ⦃fun c => ⌜I.code i c⌝⦄ Wire.runBody (n + 1) acts
      ⦃post⟨fun _ c => ⌜I.code i c⌝, fun u c => ⌜I.halted i u c⌝⟩⦄ := by
  have ha := ih.runAction i {}
  have hp := h.emit_note i panic_entry
  have he := fun op r => h.emit_record i (body_entry op r)
  have hb := ih.runBody i
  cases acts with
  | nil =>
    simp only [Wire.runBody]
    mvcgen
  | cons a rest =>
    simp only [Wire.runBody]
    rcases hop : (strField a "do").toOption with _ | op
    · mvcgen [ha, he, hb]
    · rcases hact : bodyOnlyAction op a with _ | act
      · simp only [hact]
        mvcgen [ha, hp, he, hb]
        · exact h.panic i _ (by assumption)
        · exact h.refuse i _ _ (by assumption)
      · -- an action only a body has
        have hbo := h.bodyOnly i op a act hact
        simp only [hact]
        mvcgen [hbo, hp, he, hb]
        exact h.panic i _ (by assumption)

/-- With no fuel every function stops at once, the thread stuck where it stands. -/
theorem zero (h : I.Obligations) : I.Holds 0 where
  startLoop i := by
    mvcgen [Wire.startLoop]
    exact h.startFuel i _ (by assumption)
  spin i := by
    mvcgen [Wire.spin]
    exact h.idleFuel i _ (by assumption)
  runTask i _ _ := by
    mvcgen [Wire.runTask]
    exact h.codeFuel i _ (by assumption)
  runScript i _ _ _ := by
    mvcgen [Wire.runScript]
    exact h.codeFuel i _ (by assumption)
  runAction i _ _ := by
    mvcgen [Wire.runAction]
    exact h.codeFuel i _ (by assumption)
  runBody i _ := by
    mvcgen [Wire.runBody]
    exact h.codeFuel i _ (by assumption)

theorem succ (h : I.Obligations) (ih : I.Holds n) : I.Holds (n + 1) where
  startLoop := h.startLoop_succ ih
  spin := h.spin_succ ih
  runTask := h.runTask_succ ih
  runScript := h.runScript_succ ih
  runAction := h.runAction_succ ih
  runBody := h.runBody_succ ih

/-- Every function of the interpreter keeps the invariant, at every fuel. -/
theorem holds (h : I.Obligations) : ∀ n, I.Holds n
  | 0 => h.zero
  | n + 1 => h.succ (h.holds n)

end Obligations

end Invariant

end ChunkRuntime.Wire
