import ChunkRuntime.Wire.Tasks

/-! The `run_loop` request: steps on a fresh thread that may install a run loop, add scripted
tasks to it, complete them and start it. Every step but installing, asking for the loop and
completing a task answers that there is no loop when there is none, before it reads its fields,
and so does a step that names nothing known. A step's answer carries the events its tasks
logged; a step that would wait for ever ends the request. -/

namespace ChunkRuntime.Wire

open Json

/-- The answer of an outer step that needs the loop and has none. -/
def noLoop : Value := (Failure.refused "no loop").toValue

/-- Go on with the installed loop, or answer that there is none. -/
def withOuterLoop (k : RunLoop Task → Run Value) : Run Value := do
  match (← get).loop with
  | some l => k l
  | none => return noLoop

/-- One outer step on the thread. -/
def loopStep (req : Value) : Run Value := do
  match strField req "op" with
  | .error f => return f.toValue
  | .ok op =>
    if op == "install" then
      match ← installLoop with
      | .ok () => return .str "ok"
      | .error e => return (Failure.error e).toValue
    else if op == "uninstall" then
      withOuterLoop fun _ => do
        modify fun c => { c with loop := none }
        return .str "ok"
    else if op == "current" then return currentValue (← get)
    else if op == "add" then
      withOuterLoop fun _ => withField (readTask req) fun t => do
        match ← addTask t with
        | some i => return .nat i
        | none => return noLoop
    else if op == "remove" then
      withOuterLoop fun l => withField (wordField req "id") fun i => do
        let (r, l) := l.remove i
        modify fun c => { c with loop := some l }
        return .bool r.isSome
    else if op == "complete" || op == "complete_from_thread" then
      withField (wordField req "id") fun i => withField (int32Field req "status") fun s => do
        match ← completeTask i s with
        | .ok b => return .bool b
        | .error f => return f.toValue
    else if op == "nr_tasks" then withOuterLoop fun l => return .nat l.nrTasks
    else if op == "is_running" then withOuterLoop fun l => return .bool l.isRunning
    else if op == "start" then
      withOuterLoop fun _ => tryCatch (do startLoop threadFuel; return .str "returned") fun
        | .panic f => return (Failure.fault f).toValue
        | .blocked => throw .blocked
        | .outOfFuel => throw .outOfFuel
    else if op == "stop" then
      withOuterLoop fun _ => do modifyLoop RunLoop.stop; return .null
    else withOuterLoop fun _ => return (Failure.refused s!"unknown op {op}").toValue

/-- Run outer steps, each answer with the events logged during it, until one would wait for
ever. -/
def loopSteps (c : Ctx) : List Value → List Value → List Value
  | [], acc => acc.reverse
  | req :: rest, acc =>
    let c := { c with events := #[] }
    match (loopStep req).run c with
    | (.ok r, c) =>
      let entry := if c.events.isEmpty then r
        else object [("r", r), ("events", .arr c.events.toList)]
      loopSteps c rest (entry :: acc)
    | (.error (.panic f), c) =>
      let r := (Failure.fault f).toValue
      let entry := if c.events.isEmpty then r
        else object [("r", r), ("events", .arr c.events.toList)]
      loopSteps c rest (entry :: acc)
    | (.error _, c) =>
      (object [("error", .str "blocked"), ("events", .arr c.events.toList)] :: acc).reverse

/-- Answer a `run_loop` request. -/
def runLoopRequest (req : Value) : Except Failure Value := do
  let ops ← arrField req "ops"
  return object [("results", results (loopSteps {} ops []))]

end ChunkRuntime.Wire
