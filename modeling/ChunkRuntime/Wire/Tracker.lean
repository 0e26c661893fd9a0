import ChunkRuntime.Front.Tracker
import ChunkRuntime.Wire.Memory

/-! The `tracker` request: steps on a fresh tracker, its pointers named by handles. With tracking
off, releasing or resizing a recorded pointer is refused, since it would leave its record
behind. -/

namespace ChunkRuntime.Wire

open Json

/-- A tracker and the handles of the pointers it gave. -/
structure TrackerBench where
  tracker : Tracker := {}
  handles : HandleTable := {}

/-- Refuse to touch a recorded pointer while tracking is off. -/
def checkRecorded (t : Tracker) (target : Option (Nat × Handle)) : Except Failure Unit :=
  match target with
  | some (_, h) =>
    if !t.tracking && t.isTracked h.addr then refuse "refused: recorded pointer with tracking off"
    else .ok ()
  | none => .ok ()

/-- A handle number, or `null`. -/
def handleValue : Option Nat → Value
  | some id => .nat id
  | none => .null

/-- Resize the pointer of a handle, or make a new one from null; a null result for nothing kills
the handle. -/
def trackerRealloc (b : TrackerBench) (target : Option (Nat × Handle)) (size : Nat) :
    Value × TrackerBench :=
  let (r, t) := b.tracker.realloc (target.map (·.2.addr)) size
  match r, target with
  | some a, some (id, h) =>
    (.nat id, { tracker := t, handles := b.handles.update id fun _ => { h with addr := a, size } })
  | some a, none =>
    let (id, handles) := b.handles.add { addr := a, size }
    (.nat id, { tracker := t, handles })
  | none, some (id, _) =>
    if size = 0 then (.null, { tracker := t, handles := b.handles.kill id })
    else (.null, { b with tracker := t })
  | none, none => (.null, { b with tracker := t })

/-- The step `op` on a tracker. A resize reads its size before it refuses a recorded pointer. -/
def trackerOp (b : TrackerBench) (op : String) (req : Value) : Except Failure (Value × TrackerBench) := do
  let t := b.tracker
  if op == "malloc" then
    let size ← wordField req "size"
    let (a, t) := t.malloc size
    match a with
    | some a =>
      let (id, handles) := b.handles.add { addr := a, size }
      return (.nat id, { tracker := t, handles })
    | none => return (.null, { b with tracker := t })
  else if op == "realloc" then
    let target ← readHandle b.handles req
    let size ← wordField req "size"
    checkRecorded t target
    return trackerRealloc b target size
  else if op == "free" then
    let target ← readHandle b.handles req
    checkRecorded t target
    let t := t.free (target.map (·.2.addr))
    match target with
    | some (id, _) => return (.str "ok", { tracker := t, handles := b.handles.kill id })
    | none => return (.str "ok", { b with tracker := t })
  else if op == "track" then
    let flag ← boolField req "flag"
    return (.null, { b with tracker := { t with tracking := flag } })
  else if op == "is_tracking" then return (.bool t.tracking, b)
  else if op == "outstanding" then return (.nat t.outstanding, b)
  else if op == "is_tracked" then
    match ← readHandle b.handles req with
    | some (_, h) => return (.bool (t.isTracked h.addr), b)
    | none => return (.bool false, b)
  else if op == "free_all" then
    let handles := if t.tracking then b.handles.killWhere t.isTracked else b.handles
    let (n, t) := t.freeAll
    return (.nat n, { tracker := t, handles })
  else refuse s!"unknown op {op}"

/-- One step on a tracker. -/
def trackerStep (b : TrackerBench) (req : Value) : Except Failure (Value × TrackerBench) := do
  trackerOp b (← strField req "op") req

/-- Answer a `tracker` request. -/
def trackerRequest (req : Value) : Except Failure Value := do
  let ops ← arrField req "ops"
  let (_, rs) := runSteps (atomic trackerStep) {} ops []
  return object [("results", results rs)]

end ChunkRuntime.Wire
