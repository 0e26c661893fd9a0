import ChunkRuntime.Thread.Exit
import ChunkRuntime.Thread.Launch
import ChunkRuntime.Thread.RunLoop
import ChunkRuntime.Wire.Answer

/-! Scripted tasks on a thread's run loop. A task is a one-shot that logs its name the first time
it runs and stops the loop every time, or a script of actions that logs each run and then each
action with its result. The root task of a launched thread is a one-shot that runs the
thread's body. Actions act on the thread's current loop; an action that fails answers its
failure as its result and the script goes on.

A panic unwinds to the nearest `start` action, which answers it as its result, and otherwise
out of the thread's outermost start; on its way it leaves everything as it was when it struck,
the task it struck in lost from its slot and the starts it left still counted as running. A
start that would wait for ever stops the whole thread, and so does one that runs past the steps a
thread may take. A thread may log at most `eventLimit`
events between two looks at its log; one more panics. -/

namespace ChunkRuntime.Wire

open Json

/-- The most events logged between two looks at the log. -/
def eventLimit : Nat := 500

/-- The steps one thread may take before it counts as stuck. -/
def threadFuel : Nat := 1000000

/-- A task on a run loop. -/
inductive Task where
  | once (name : String) (pending : Bool)
  | script (name : String) (actions : List Value) (runs : Nat)
  | root (pending : Bool)

/-- Why a thread left what it was doing: a panic, a start that waits for ever, or the steps it
may take used up. -/
inductive Unwind where
  | panic (f : Fault)
  | blocked
  | outOfFuel

/-- A thread as its tasks see it. -/
structure Ctx where
  loop : Option (RunLoop Task) := none
  channels : Nat := 0
  completers : List (Nat × Nat) := []
  launch : Option LaunchState := none
  threadName : Option String := none
  body : List Value := []
  events : Array Value := #[]
  exitChain : ExitChain String := {}
  keys : ExitKeys := {}

/-- A computation on a thread, which may unwind. -/
abbrev Run := ExceptT Unwind (StateM Ctx)

/-- The status and run count an action sees. -/
structure RunInfo where
  status : Int := 0
  runs : Nat := 0

/-- Log an event. -/
def emit (v : Value) : Run Unit := do
  let c ← get
  if c.events.size ≥ eventLimit then throw (.panic .eventLimit)
  set { c with events := c.events.push v }

/-- Change the current loop, if there is one. -/
def modifyLoop (f : RunLoop Task → RunLoop Task) : Run Unit :=
  modify fun c => { c with loop := c.loop.map f }

/-- Install a fresh loop on the thread; a second one is refused. -/
def installLoop : Run (Except Error Unit) := do
  let c ← get
  if c.loop.isSome then return .error .runLoopInstalled
  set { c with loop := some { channel := c.channels }, channels := c.channels + 1 }
  return .ok ()

/-- Whether a loop is installed and running. -/
def currentValue (c : Ctx) : Value :=
  object [("installed", .bool c.loop.isSome),
    ("running", .bool ((c.loop.map RunLoop.isRunning).getD false))]

/-- Add a task to the current loop and keep its completer; answers its slot. -/
def addTask (t : Task) : Run (Option Nat) := do
  let c ← get
  match c.loop with
  | none => return none
  | some l =>
    let (i, l) := l.add t
    set { c with loop := some l, completers := (i, l.channel) :: c.completers.filter (·.1 != i) }
    return some i

/-- Complete task `id` through its latest completer: whether the completion was sent. -/
def completeTask (id : Nat) (status : Int) : Run (Except Failure Bool) := do
  let c ← get
  match c.completers.find? (·.1 == id) with
  | none => return .error (.refused "no completer for id")
  | some (_, ch) =>
    match c.loop with
    | some l =>
      if l.channel == ch then
        set { c with loop := some (l.enqueue ⟨id, status⟩) }
        return .ok true
      else return .ok false
    | none => return .ok false

/-- The task a step describes: a one-shot when `once` is true, else a script, with no actions
when it names none; a script that is there must be an array. -/
def readTask (req : Value) : Except Failure Task := do
  match req.field? "task" with
  | none => refuse "missing task"
  | some t =>
    let name ← strField t "name"
    if ((t.field? "once").bind Value.bool?) == some true then return .once name true
    else return .script name (← optionalArrField t "script") 0

/-- The answer of an action that needs the current loop and has none. -/
def noRunLoop : Value := (Failure.refused "no run loop").toValue

/-- Go on with a read field, or answer its failure. -/
def withField (x : Except Failure α) (k : α → Run Value) : Run Value :=
  match x with
  | .ok a => k a
  | .error f => return f.toValue

/-- Go on with the current loop, or answer that there is none. -/
def withLoop (k : RunLoop Task → Run Value) : Run Value := do
  match (← get).loop with
  | some l => k l
  | none => return noRunLoop

/-- Every action of a task but a nested start. An action on the current loop answers that there
is none before it reads its fields. -/
def basicAction (info : RunInfo) (op : String) (a : Value) : Run Value := do
  if op == "stop" then withLoop fun _ => do modifyLoop RunLoop.stop; return .null
  else if op == "stop_after" then
    withLoop fun _ => withField (wordField a "n") fun n => do
      if info.runs == n then do modifyLoop RunLoop.stop; return .bool true
      else return .bool false
  else if op == "stop_if" then
    withLoop fun _ => withField (int32Field a "status") fun s => do
      if info.status == s then do modifyLoop RunLoop.stop; return .bool true
      else return .bool false
  else if op == "add" then
    withLoop fun _ => withField (readTask a) fun t => do
      match ← addTask t with
      | some i => return .nat i
      | none => return noRunLoop
  else if op == "remove" then
    withLoop fun l => withField (wordField a "id") fun i => do
      let (r, l) := l.remove i
      modify fun c => { c with loop := some l }
      return .bool r.isSome
  else if op == "complete" then
    withField (wordField a "id") fun i => withField (int32Field a "status") fun s => do
      match ← completeTask i s with
      | .ok b => return .bool b
      | .error f => return f.toValue
  else if op == "nr_tasks" then withLoop fun l => return .nat l.nrTasks
  else if op == "is_running" then withLoop fun l => return .bool l.isRunning
  else if op == "current" then return currentValue (← get)
  else if op == "state" then
    match (← get).launch with
    | some s => return .str s.name
    | none => return .null
  else if op == "panic" then throw (.panic .taskPanic)
  else return (Failure.refused s!"unknown action {op}").toValue

/-- Whether a body action needs the current loop. Only asking for the loop, the launch state and
completing a task do without; any other action, one that names nothing known included, answers
that there is no loop when there is none. -/
def needsLoop (op : String) : Bool :=
  !(op == "current" || op == "state" || op == "complete")

/-- The actions only a launched thread's body has: its name, and a callback for its exit that
logs under a name, empty when none is given. -/
def bodyOnlyAction (op : String) (a : Value) : Option (Run Value) :=
  if op == "name" then some do
    match (← get).threadName with
    | some n => return .str n
    | none => return .null
  else if op == "register_exit" then some do
    let n := ((a.field? "name").bind Value.str?).getD ""
    let c ← get
    let (keys, exitChain) := c.exitChain.register c.keys n
    set { c with keys, exitChain }
    return .null
  else none

mutual

/-- Start the current loop: dispatch until asked to stop. -/
def startLoop : Nat → Run Unit
  | 0 => throw .outOfFuel
  | fuel + 1 => do
    modifyLoop RunLoop.enter
    spin fuel
    modifyLoop RunLoop.leave

/-- Dispatch completions until the loop is asked to stop. -/
def spin : Nat → Run Unit
  | 0 => throw .outOfFuel
  | fuel + 1 => do
    let c ← get
    match c.loop with
    | none => throw .blocked
    | some l =>
      let (n, l) := l.next
      set { c with loop := some l }
      match n with
      | .stop => pure ()
      | .wait => throw .blocked
      | .skip => spin fuel
      | .dispatch i status t =>
        let t ← runTask fuel t status
        modifyLoop (·.putBack i t)
        spin fuel

/-- Run one task with a status. -/
def runTask : Nat → Task → Int → Run Task
  | 0, _, _ => throw .outOfFuel
  | _ + 1, .once name pending, _ => do
    if pending then emit (object [("once", .str name)])
    modifyLoop RunLoop.stop
    return .once name false
  | fuel + 1, .root pending, _ => do
    if pending then
      modify fun c => { c with launch := some .running }
      runBody fuel (← get).body
    modifyLoop RunLoop.stop
    return .root false
  | fuel + 1, .script name actions runs, status => do
    emit (object [("run", .str name), ("status", Value.ofInt status), ("n", .nat (runs + 1))])
    runScript fuel name ⟨status, runs + 1⟩ actions
    return .script name actions (runs + 1)

/-- Run a script's actions, logging each result. -/
def runScript : Nat → String → RunInfo → List Value → Run Unit
  | 0, _, _, _ => throw .outOfFuel
  | _ + 1, _, _, [] => pure ()
  | fuel + 1, name, info, a :: rest => do
    let r ← runAction fuel info a
    emit (object [("in", .str name), ("r", r)])
    runScript fuel name info rest

/-- One action and its result. -/
def runAction : Nat → RunInfo → Value → Run Value
  | 0, _, _ => throw .outOfFuel
  | fuel + 1, info, a =>
    match strField a "do" with
    | .error f => return f.toValue
    | .ok op =>
      if op == "start" then
        withLoop fun _ => tryCatch (do startLoop fuel; return .str "returned") fun
          | .panic f => return (Failure.fault f).toValue
          | .blocked => throw .blocked
          | .outOfFuel => throw .outOfFuel
      else basicAction info op a

/-- A launched thread's body: each action logged with its result. -/
def runBody : Nat → List Value → Run Unit
  | 0, _ => throw .outOfFuel
  | _ + 1, [] => pure ()
  | fuel + 1, a :: rest => do
    let op? := (strField a "do").toOption
    if op? == some "panic" then
      emit (object [("do", .str "panic")])
      throw (.panic .taskPanic)
    let r ← match op? with
      | some op =>
        match bodyOnlyAction op a with
        | some act => act
        | none =>
          if needsLoop op && (← get).loop.isNone then pure noRunLoop else runAction fuel {} a
      | none => runAction fuel {} a
    let op := match a.field? "do" with
      | some v => v
      | none => .null
    emit (object [("do", op), ("r", r)])
    runBody fuel rest

end

end ChunkRuntime.Wire
