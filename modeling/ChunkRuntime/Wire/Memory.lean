import ChunkRuntime.Front.Door
import ChunkRuntime.Front.Handles
import ChunkRuntime.Wire.Pool

/-! Memory steps shared by the `core` and `capi` requests: allocation through the front door or
around its hooks, and the handles that name the pointers it gives. A step names a pointer by its
handle, or by `null` (a missing handle is `null` too). -/

namespace ChunkRuntime.Wire

open Json

/-- The most bytes one `fill` may write. -/
def fillLimit : Nat := Nat.pow 2 24

/-- A front door and the handles of the pointers it gave. -/
structure MemoryBench where
  door : FrontDoor Heap := { sys := {} }
  handles : HandleTable := {}

/-- The handle a step names, or `none` for null. -/
def readHandleRef (req : Value) : Except Failure (Option Nat) :=
  match req.field? "h" with
  | none | some .null => .ok none
  | some v =>
    match Value.word? v with
    | some n => .ok (some n)
    | none => refuse "h: expected a handle or null"

/-- A live handle. -/
def liveHandle (t : HandleTable) (id : Nat) : Except Failure Handle :=
  match t.get id with
  | .ok h => .ok h
  | .error p => refuse p.message

/-- The handle a step names with its record, or `none` for null. -/
def readHandle (t : HandleTable) (req : Value) : Except Failure (Option (Nat × Handle)) := do
  match ← readHandleRef req with
  | none => return none
  | some id => return some (id, ← liveHandle t id)

/-- The handle a step names, which must not be null. -/
def readSomeHandle (t : HandleTable) (req : Value) (what : String) : Except Failure (Nat × Handle) := do
  match ← readHandle t req with
  | none => refuse (what ++ ": null handle")
  | some r => return r

/-- Where a pointer is, as a value: its block when it is a block in use, else the heap. -/
def whereValue (d : FrontDoor Heap) (addr : Nat) : Value :=
  match d.blockOf addr with
  | some b => object [("block", .nat b)]
  | none => .str "heap"

/-- A handle and where its pointer is. -/
def pointerValue (d : FrontDoor Heap) (id : Nat) (h : Handle) : Value :=
  object [("h", .nat id), ("where", whereValue d h.addr)]

/-- The counting allocator's tallies as a value. -/
def countersValue (c : Counters) : Value :=
  object [("alloc", .nat c.alloc), ("realloc", .nat c.realloc), ("free", .nat c.free),
    ("foreign", .nat c.foreign)]

/-- Record a new pointer from `malloc`: a block's bytes are known zeros. -/
def recordMalloc (b : MemoryBench) (d : FrontDoor Heap) (size : Nat) :
    Option Nat → Value × MemoryBench
  | none => (.null, { b with door := d })
  | some a =>
    let known := if d.isAllocated a then size else 0
    let (id, handles) := b.handles.add { addr := a, size, known }
    (pointerValue d id { addr := a, size }, { door := d, handles })

/-- A `malloc`, through the front door or around its hooks. -/
def mallocStep (b : MemoryBench) (req : Value) (hooked : Bool) : Except Failure (Value × MemoryBench) := do
  let size ← wordField req "size"
  let (a, d) ← liftFault
    (if hooked then b.door.malloc Heap.system size else b.door.defaultMalloc Heap.system size)
  return recordMalloc b d size a

/-- A `realloc`, through the front door or around its hooks. -/
def reallocStep (b : MemoryBench) (req : Value) (hooked : Bool) : Except Failure (Value × MemoryBench) := do
  let target ← readHandle b.handles req
  let size ← wordField req "size"
  let old := target.map (·.2.addr)
  let counted := hooked && b.door.table.realloc == some .counting
  let foreign := counted && b.door.isForeign old
  let (r, d) ← liftFault (if hooked then b.door.realloc Heap.system old size
    else b.door.defaultRealloc Heap.system old size)
  match r, target with
  | some a, none =>
    let (id, handles) := b.handles.add { addr := a, size }
    return (pointerValue d id { addr := a, size }, { door := d, handles })
  | some a, some (id, h) =>
    let h' := { h with addr := a, size, known := min h.known size }
    return (pointerValue d id h', { door := d, handles := b.handles.update id fun _ => h' })
  | none, some (id, h) =>
    if size = 0 && !d.isAllocated h.addr && !foreign then
      return (.null, { door := d, handles := b.handles.kill id })
    else return (.null, { b with door := d })
  | none, none => return (.null, { b with door := d })

/-- A `free`, through the front door or around its hooks. -/
def freeStep (b : MemoryBench) (req : Value) (hooked : Bool) : Except Failure (Value × MemoryBench) := do
  let target ← readHandle b.handles req
  let old := target.map (·.2.addr)
  let counted := hooked && b.door.table.free == some .counting
  let foreign := counted && b.door.isForeign old
  let d ← liftFault
    (if hooked then b.door.free Heap.system old else b.door.defaultFree Heap.system old)
  match target with
  | some (id, _) =>
    if foreign then return (.str "ok", { b with door := d })
    else return (.str "ok", { door := d, handles := b.handles.kill id })
  | none => return (.str "ok", { b with door := d })

/-- The bytes `off` to `off + len` of a pattern, as hex. -/
def patternBytes (p : Pattern) (off len : Nat) : String :=
  String.join ((List.range len).map fun i => hexByte (p.byte (off + i)))

/-- A memory step through the front door's hooks (`hooked`) or past them, or `none` when `op`
is not one. -/
def memoryOp (b : MemoryBench) (op : String) (hooked : Bool) (req : Value) :
    Option (Except Failure (Value × MemoryBench)) :=
  if op == "malloc" then some (mallocStep b req hooked)
  else if op == "realloc" then some (reallocStep b req hooked)
  else if op == "free" then some (freeStep b req hooked)
  else if op == "is_allocated" then some do
    match ← readHandle b.handles req with
    | none => return (.bool false, b)
    | some (_, h) => return (.bool (b.door.isAllocated h.addr), b)
  else if op == "where" then some do
    let (id, h) ← readSomeHandle b.handles req "where"
    return (pointerValue b.door id h, b)
  else if op == "fill" then some do
    let (id, h) ← readSomeHandle b.handles req "fill"
    let seed ← wordField req "seed"
    if h.size > fillLimit then refuse "fill: too large"
    else
      let h' := { h with known := h.size, pattern := .counting seed }
      return (.str "ok", { b with handles := b.handles.update id fun _ => h' })
  else if op == "peek" then some do
    let (_, h) ← readSomeHandle b.handles req "peek"
    let off ← wordField req "off"
    let len ← wordField req "len"
    if len > peekLimit ∨ off + len > h.known then refuse "peek outside the known bytes"
    else return (.str (patternBytes h.pattern off len), b)
  else if op == "counters" then some (return (countersValue b.door.counting.counters, b))
  else none

/-- The word that sends a memory step past the hooks, with the underscore after it. -/
def pastHooks : List Char := "default_".toList

/-- An op name with every leading `default_` taken off, and whether one was; `fuel` bounds the
words taken. -/
def stripPastHooks : Nat → List Char → List Char × Bool
  | 0, cs => (cs, false)
  | fuel + 1, cs =>
    if pastHooks.isPrefixOf cs then ((stripPastHooks fuel (cs.drop pastHooks.length)).1, true)
    else (cs, false)

/-- A memory step, or `none` when `op` is not one. The op may carry `default_` in front, once or
more, to go past the hooks. -/
def memoryStep (b : MemoryBench) (op : String) (req : Value) :
    Option (Except Failure (Value × MemoryBench)) :=
  let (base, past) := stripPastHooks op.length op.toList
  memoryOp b (String.ofList base) (!past) req

end ChunkRuntime.Wire
