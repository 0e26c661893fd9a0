import ChunkRuntime.Wire.Memory

/-! The `core` request: steps on a fresh front door, with its pool, its hooks and the memory
steps. -/

namespace ChunkRuntime.Wire

open Json

/-- A switch that is on only when it is the boolean true; anything else, or nothing, is off. -/
def flagField (req : Value) (key : String) : Bool :=
  ((req.field? key).bind Value.bool?) == some true

/-- The geometry a step names. -/
def readGeometry (req : Value) : Except Failure Geometry := do
  let blockSize ← wordField req "block_size"
  let maxSize ← wordField req "max_size"
  let g : Geometry := ⟨blockSize, maxSize⟩
  checkBlockLimit g
  return g

/-- Release a front door's pool; handles to its blocks in use die. -/
def finiPoolStep (b : MemoryBench) : Except Failure MemoryBench := do
  let d ← liftError b.door.finiPool
  return { door := d, handles := b.handles.killWhere b.door.isAllocated }

/-- Pool statistics, or `null` without a pool. -/
def optionalStats : Option PoolStats → Value
  | some s => statsValue s
  | none => .null

/-- One step on a front door. -/
def coreStep (b : MemoryBench) (req : Value) : Except Failure (Value × MemoryBench) := do
  let op ← strField req "op"
  if op == "init_dlc" then
    let g ← readGeometry req
    let d ← liftHalt (b.door.initPool Heap.system g)
    return (.str "ok", { b with door := d })
  else if op == "fini_dlc" then return (.str "ok", ← finiPoolStep b)
  else if op == "stats" then return (optionalStats b.door.stats, b)
  else if op == "vtable_is_set" then return (.bool b.door.table.isSet, b)
  else if op == "set_allocator" then
    let hook (on : Bool) : Option Hook := if on then some .counting else none
    let t : Table := ⟨hook (flagField req "alloc"), hook (flagField req "realloc"),
      hook (flagField req "free")⟩
    return (.bool t.isSet, { b with door := { b.door with table := t } })
  else
    match memoryStep b op req with
    | some r => r
    | none => refuse s!"unknown op {op}"

/-- Answer a `core` request. -/
def coreRequest (req : Value) : Except Failure Value := do
  let ops ← arrField req "ops"
  let (_, rs) := runSteps (atomic coreStep) {} ops []
  return object [("results", results rs)]

end ChunkRuntime.Wire
