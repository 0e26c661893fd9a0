import ChunkRuntime.Wire.Tasks

/-! The `launch` and `stack_size` requests. A launch starts a thread, optionally with a run loop,
a name and a stack size, and runs its body there: with a loop, the body is the first run of the
loop's root task, in slot 0. The thread's exit callbacks log the thread's state as it ends. The
default stack size a request sets lasts for that request only. -/

namespace ChunkRuntime.Wire

open Json

/-- A field that may be left out; one that is there, `null` included, must be of its kind. -/
def optionalField (req : Value) (key : String) (read : Value → String → Except Failure α) :
    Except Failure (Option α) :=
  match req.field? key with
  | none => .ok none
  | some _ => (read req key).map some

/-- A launched thread's life, as its launcher runs it. -/
def launchpad (withLoop : Bool) : Run Unit := do
  modify fun c => { c with launch := some .created }
  if !withLoop then
    modify fun c => { c with launch := some .running }
    runBody threadFuel (← get).body
    modify fun c => { c with launch := some .terminated }
  else
    let _ ← installLoop
    modify fun c => { c with launch := some .runLoopInstalled }
    match (← get).loop with
    | none => pure ()
    | some l =>
      let (root, l) := l.add (.root true)
      modify fun c => { c with loop := some (l.enqueue ⟨root, 0⟩) }
      startLoop threadFuel
      modify fun c => { c with launch := some .stopping }
      modifyLoop fun l => (l.remove root).2
      modify fun c => { c with loop := none, launch := some .terminated }

/-- The exit callbacks of a thread that has ended, each logging the thread's state. -/
def exitCallbacks : Run Unit := do
  let c ← get
  let state := match c.launch with
    | some s => Value.str s.name
    | none => .null
  for name in c.exitChain.atExit c.keys do
    emit (object [("exit", .str name), ("state", state), ("run_loop", .bool c.loop.isSome)])

/-- How a launched thread ended: `none` when it never did. -/
def runThread (c : Ctx) (withLoop : Bool) : Option Bool × Ctx :=
  match (launchpad withLoop).run c with
  | (.ok (), c) =>
    let (_, c) := exitCallbacks.run c
    (some false, c)
  | (.error (.panic _), c) =>
    let c := { c with loop := none }
    let (_, c) := exitCallbacks.run c
    (some true, c)
  | (.error _, c) => (none, c)

/-- Start a thread with a name, a stack size and a body, on a system that `commits` the stacks
it grants: refused when the name or the stack is, else run to its end. -/
def spawn (commits : Nat → Bool) (name : Option String) (stack : Option Nat) (withLoop : Bool)
    (body : List Value) : Except Halt (Option Bool × Ctx) := do
  checkSpawn commits name stack
  return runThread { threadName := name, body } withLoop

/-- Set the default stack size; answers the result and the new default. -/
def setDefault (stored : Nat) (size : Nat) : Value × Nat :=
  match checkDefaultStackSize size with
  | .ok s => (.str "ok", s)
  | .error e => ((Failure.error e).toValue, stored)

/-- A default stack size as a value. -/
def defaultValue (stored : Nat) : Value :=
  match defaultStackSize stored with
  | some s => .nat s
  | none => .null

/-- Answer a `launch` request. -/
def launchRequest (req : Value) : Except Failure Value := do
  let dflt ← optionalField req "default_stack_size" wordField
  let withLoop ← optionalSwitch req "run_loop"
  let name ← optionalField req "name" strField
  let stack ← optionalField req "stack_size" wordField
  let body ← optionalArrField req "body"
  let (head, stored) := match dflt with
    | some d =>
      let (r, stored) := setDefault 0 d
      ([("set_default", r), ("default", defaultValue stored)], stored)
    | none => ([], 0)
  let stackSize := match stack with
    | some s => some s
    | none => defaultStackSize stored
  match spawn machineCommits name stackSize (withLoop.getD true) body with
  | .error h =>
    let r := match h with
      | .fault f => (Failure.fault f).toValue
      | .error e => (Failure.error e).toValue
    return object (head ++ [("spawn", r), ("log", .arr [])])
  | .ok (ended, c) =>
    let tail := match ended with
      | some p => [("panicked", .bool p)]
      | none => [("blocked", .bool true)]
    return object (head ++ [("spawn", .str "ok"), ("log", .arr c.events.toList)] ++ tail)

/-- One step on the default stack size. -/
def stackStep (stored : Nat) (req : Value) : Except Failure (Value × Nat) := do
  let op ← strField req "op"
  if op == "set" then
    let size ← wordField req "size"
    return setDefault stored size
  else if op == "get" then return (defaultValue stored, stored)
  else if op == "launcher" then
    match checkSpawn machineCommits none (defaultStackSize stored) with
    | .error (.fault f) => .error (.fault f)
    | .error (.error e) => .error (.error e)
    | .ok () => return (.bool true, stored)
  else refuse s!"unknown op {op}"

/-- Answer a `stack_size` request. -/
def stackSizeRequest (req : Value) : Except Failure Value := do
  let ops ← arrField req "ops"
  let (_, rs) := runSteps (atomic stackStep) 0 ops []
  return object [("results", results rs)]

end ChunkRuntime.Wire
