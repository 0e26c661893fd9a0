import ChunkRuntime.Thread.Exit
import ChunkRuntime.Wire.Answer

/-! The `exit` request: steps on a fresh thread that register exit callbacks, run or finalize
them, and start child threads, each joined at once. Every step and callback logs what it
does into one log; a callback logs its name and then runs its own steps, none when it is given
none. -/

namespace ChunkRuntime.Wire

open Json

/-- An exit callback: its name and its steps. -/
abbrev ExitCallback := String × List Value

/-- The log and the process-wide key. -/
structure ExitWorld where
  keys : ExitKeys := {}
  log : Array String := #[]

/-- A computation on the threads of an `exit` request. -/
abbrev ExitRun := StateM ExitWorld

/-- Log a line. -/
def note (s : String) : ExitRun Unit := modify fun w => { w with log := w.log.push s }

/-- Log a failed step. -/
def noteFailure (f : Failure) : ExitRun Unit := note ("error:" ++ f.toValue.render)

mutual

/-- Run steps on a thread whose exit chain is `chain` (`none` while it tears down). -/
def exitSteps : Nat → Option (ExitChain ExitCallback) → List Value →
    ExitRun (Option (ExitChain ExitCallback))
  | 0, chain, _ => pure chain
  | _ + 1, chain, [] => pure chain
  | fuel + 1, chain, s :: rest => do
    let chain ← exitStep fuel chain s
    exitSteps fuel chain rest

/-- Run one step. -/
def exitStep : Nat → Option (ExitChain ExitCallback) → Value →
    ExitRun (Option (ExitChain ExitCallback))
  | 0, chain, _ => pure chain
  | fuel + 1, chain, s =>
    match strField s "op" with
    | .error f => do noteFailure f; pure chain
    | .ok op =>
      if op == "register" then
        match strField s "name", optionalArrField s "then" with
        | .error f, _ => do noteFailure f; pure chain
        | .ok _, .error f => do noteFailure f; pure chain
        | .ok name, .ok steps => do
          let w ← get
          let (keys, chain, now) := ExitChain.registerOn w.keys chain (name, steps)
          set { w with keys }
          runCallbacks fuel chain now
      else if op == "run_now" then do
        note "run_now"
        let (items, chain) := ExitChain.runNowOn (← get).keys chain
        runCallbacks fuel chain items
      else if op == "finalize" then do
        note "finalize"
        modify fun w => { w with keys := w.keys.finalize }
        pure chain
      else if op == "mark" then
        match strField s "name" with
        | .error f => do noteFailure f; pure chain
        | .ok name => do note ("mark:" ++ name); pure chain
      else if op == "child" then
        match arrField s "ops" with
        | .error f => do noteFailure f; pure chain
        | .ok ops => do
          note "child:start"
          let c ← exitSteps fuel (some {}) ops
          note "child:end"
          exitThread fuel c
          note "child:joined:true"
          pure chain
      else do noteFailure (.refused s!"unknown op {op}"); pure chain

/-- Run callbacks in order on a thread whose exit chain is `chain`. -/
def runCallbacks : Nat → Option (ExitChain ExitCallback) → List ExitCallback →
    ExitRun (Option (ExitChain ExitCallback))
  | 0, chain, _ => pure chain
  | _ + 1, chain, [] => pure chain
  | fuel + 1, chain, (name, steps) :: rest => do
    note ("cb:" ++ name)
    let chain ← exitSteps fuel chain steps
    runCallbacks fuel chain rest

/-- A thread's exit: its chain, if still current, runs while the thread tears down. -/
def exitThread : Nat → Option (ExitChain ExitCallback) → ExitRun Unit
  | 0, _ => pure ()
  | fuel + 1, chain => do
    let items := ExitChain.exitOn (← get).keys chain
    let _ ← runCallbacks fuel none items
    pure ()

end

/-- The steps a thread may take in one `exit` request. -/
def exitFuel : Nat := 1000000

/-- Answer an `exit` request. -/
def exitRequest (req : Value) : Except Failure Value := do
  let ops ← arrField req "ops"
  let run : ExitRun Unit := do
    let c ← exitSteps exitFuel (some {}) ops
    note "end"
    exitThread exitFuel c
  let (_, w) := run.run {}
  return object [("log", .arr (w.log.toList.map Value.str)), ("panicked", .bool false)]

end ChunkRuntime.Wire
