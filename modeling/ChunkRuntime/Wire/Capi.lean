import ChunkRuntime.Thread.Exit
import ChunkRuntime.Thread.Launch
import ChunkRuntime.Thread.Lock
import ChunkRuntime.Wire.Config
import ChunkRuntime.Wire.Core
import ChunkRuntime.Wire.Tracker

/-! The `capi` request: the flat interface a C program sees, on a fresh thread, with every piece
of process-wide state fresh: the front door with its pool and hooks, the tracker, the lock
registry, the default stack size and the thread's exit callbacks. Four exit callbacks are on
offer: `a`, `b` and `c` log their names, and `reg` logs its name and then registers `c`. The
wrappers' resize refuses a recorded pointer before it reads its size. -/

namespace ChunkRuntime.Wire

open Json

/-- The state behind the flat interface. -/
structure Capi where
  memory : MemoryBench := {}
  tracker : TrackerBench := {}
  locks : Locks := {}
  deadLocks : List Nat := []
  stack : Nat := 0
  keys : ExitKeys := {}
  chain : Option (ExitChain String) := some {}
  called : Array String := #[]

/-- The hook a choice names; a choice that is not a text names none. -/
def readHook (req : Value) (key : String) : Except Failure (Option Hook) :=
  match (req.field? key).bind Value.str? with
  | none | some "none" => .ok none
  | some "counting" => .ok (some .counting)
  | some "dlc" => .ok (some .pool)
  | some s => refuse s!"unknown allocator choice {s}"

/-- Set up the pool: zero on success, minus one on any error. -/
def initWith (c : Capi) (g : Geometry) : Value × Capi :=
  match c.memory.door.initPool Heap.system g with
  | .ok d => (Value.ofInt 0, { c with memory := { c.memory with door := d } })
  | .error _ => (Value.ofInt (-1), c)

mutual

/-- Run exit callbacks, in order, on a chain that is `none` while the thread tears down. -/
def runCallbacksNow : Nat → Capi → List String → Capi
  | 0, c, _ => c
  | _ + 1, c, [] => c
  | fuel + 1, c, name :: rest =>
    let c := { c with called := c.called.push name }
    let c := if name == "reg" then registerNow fuel c "c" else c
    runCallbacksNow fuel c rest

/-- Register a callback, or run it at once while the thread tears down. -/
def registerNow : Nat → Capi → String → Capi
  | 0, c, _ => c
  | fuel + 1, c, name =>
    match c.chain with
    | some ch =>
      let (keys, ch) := ch.register c.keys name
      { c with keys, chain := some ch }
    | none => runCallbacksNow fuel c [name]

end

/-- The steps the flat interface may take in one request. -/
def capiFuel : Nat := 100000

/-- The lock a handle names, alive. -/
def liveLock (c : Capi) (id : Nat) : Except Failure Nat :=
  if !c.locks.exists? id then refuse "unknown lock handle"
  else if c.deadLocks.contains id then refuse "dead lock handle"
  else .ok id

/-- One step on the flat interface. -/
def capiStep (c : Capi) (req : Value) : Except Failure (Value × Capi) := do
  let op ← strField req "op"
  if op == "init" then
    let g ← readGeometry req
    return initWith c g
  else if op == "init_env" then
    let settings ← readSettings req
    match Geometry.fromLookup (lookupIn settings) with
    | .ok g =>
      checkBlockLimit g
      return initWith c g
    | .error _ => return (Value.ofInt (-1), c)
  else if op == "fini" then
    match finiPoolStep c.memory with
    | .ok m => return (.null, { c with memory := m })
    | .error _ => return (.null, c)
  else if op == "stats" then
    let s := c.memory.door.stats.getD ⟨0, 0⟩
    return (.arr [.nat s.allocated, .nat s.free], c)
  else if op == "stats_null" then return (.null, c)
  else if op == "is_allocated_null" then return (.nat 0, c)
  else if op == "set_allocator" then
    let a ← readHook req "alloc"
    let r ← readHook req "realloc"
    let f ← readHook req "free"
    let d := { c.memory.door with table := ⟨a, r, f⟩ }
    return (.null, { c with memory := { c.memory with door := d } })
  else if op == "track" || op == "outstanding" then
    let (v, t) ← trackerOp c.tracker op req
    return (v, { c with tracker := t })
  else if op == "wmalloc" then
    let (v, t) ← trackerOp c.tracker "malloc" req
    return (v, { c with tracker := t })
  else if op == "wrealloc" then
    let target ← readHandle c.tracker.handles req
    checkRecorded c.tracker.tracker target
    let size ← wordField req "size"
    let (v, t) := trackerRealloc c.tracker target size
    return (v, { c with tracker := t })
  else if op == "wfree" then
    let (v, t) ← trackerOp c.tracker "free" req
    return (v, { c with tracker := t })
  else if op == "free_all" then
    let (_, t) ← trackerOp c.tracker "free_all" req
    return (.nat t.tracker.outstanding, { c with tracker := t })
  else if op == "stack_set" then
    let size ← wordField req "size"
    match checkDefaultStackSize size with
    | .ok s => return (Value.ofInt 0, { c with stack := s })
    | .error _ => return (Value.ofInt (-1), c)
  else if op == "stack_get" then return (.nat c.stack, c)
  else if op == "lock_alloc" then
    let (id, locks) := c.locks.allocate
    return (.nat id, { c with locks })
  else if op == "lock_free" then
    match req.field? "h" with
    | none | some .null => return (.null, c)
    | some _ =>
      let id ← liveLock c (← wordField req "h")
      let (_, locks) := c.locks.release id
      return (.null, { c with locks, deadLocks := id :: c.deadLocks })
  else if op == "lock_acquire" then
    let id ← liveLock c (← wordField req "h")
    let wait ← int32Field req "wait"
    match c.locks.acquire id (wait != 0) with
    | some (r, locks) => return (.nat (if r then 1 else 0), { c with locks })
    | none => refuse "refused: would block forever"
  else if op == "lock_release" then
    let id ← liveLock c (← wordField req "h")
    return (.null, { c with locks := c.locks.unlock id })
  else if op == "locks_free_all" then
    let (_, locks) := c.locks.releaseAll
    return (.null, { c with locks, deadLocks := (List.range locks.held.size) })
  else if op == "register_exit" then
    match (req.field? "cb").bind Value.str? with
    | some name =>
      if name == "a" || name == "b" || name == "c" || name == "reg" then
        return (Value.ofInt 0, registerNow capiFuel c name)
      else return (Value.ofInt (-1), c)
    | none => return (Value.ofInt (-1), c)
  else if op == "run_exit" then
    match c.chain with
    | none => return (.arr [], c)
    | some ch =>
      let (items, ch) := ch.takeAll c.keys
      let before := c.called.size
      let c := runCallbacksNow capiFuel { c with chain := some ch } items
      return (.arr ((c.called.toList.drop before).map Value.str), c)
  else if op == "finalize" then return (.null, { c with keys := c.keys.finalize })
  else if op == "start_thread" then
    let arg := ((req.field? "arg").bind Value.word?).getD 0
    let none? := ((req.field? "null").bind Value.bool?).getD false
    if none? then return (object [("id", Value.ofInt (-1))], c)
    else
      match checkSpawn machineCommits none (defaultStackSize c.stack) with
      | .ok () =>
        return (object [("id", .str "thread"), ("seen", object [("arg", .nat arg),
          ("run_loop", .bool true), ("state", .str LaunchState.running.name)])], c)
      | .error _ => return (object [("id", Value.ofInt (-1))], c)
  else
    match memoryStep c.memory op req with
    | some r => do
      let (v, m) ← r
      return (v, { c with memory := m })
    | none => refuse s!"unknown op {op}"

/-- Answer a `capi` request. -/
def capiRequest (req : Value) : Except Failure Value := do
  let ops ← arrField req "ops"
  let (c, rs) := runSteps (atomic capiStep) {} ops []
  let before := c.called.size
  let c := match c.chain with
    | some ch => runCallbacksNow capiFuel { c with chain := none } (ch.atExit c.keys)
    | none => c
  let exitLog := (c.called.toList.drop before).map Value.str
  return object [("results", results rs), ("exit_log", .arr exitLog)]

end ChunkRuntime.Wire
