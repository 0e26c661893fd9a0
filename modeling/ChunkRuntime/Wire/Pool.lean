import ChunkRuntime.Pool.Blocks
import ChunkRuntime.Wire.Answer
import ChunkRuntime.Wire.Region

/-! The `dlc` request: a pool of the given geometry and steps on it. Addresses are written
relative to the region's base, as a block index or a signed byte offset, both taken round the
word. A step may also fill a block in use, named by its index, with a counting pattern and read
bytes of it back; the block is checked before anything else of the step is read. Blocks read as
zeros when handed out. After `fini` the pool is gone and every step is refused. -/

namespace ChunkRuntime.Wire

open Json

/-- The most blocks a request may ask a pool for. -/
def blockLimit : Nat := Nat.pow 2 22

/-- The most bytes one `peek` may read. -/
def peekLimit : Nat := 256

/-- Refuse a geometry of more than `blockLimit` blocks. -/
def checkBlockLimit (g : Geometry) : Except Failure Unit :=
  if g.blockSize ≠ 0 ∧ g.maxSize / g.blockSize > blockLimit then refuse "more than 2^22 blocks"
  else .ok ()

/-- Two lowercase hex digits of a byte. -/
def hexByte (b : Nat) : String :=
  let d (k : Nat) : Char := (Nat.toDigits 16 k).headD '0'
  String.ofList [d (b / 16 % 16), d (b % 16)]

/-- The bytes `off` to `off + len` of the counting pattern from `seed`, as hex. -/
def patternHex (seed : Nat) (off len : Nat) : String :=
  String.join ((List.range len).map fun i => hexByte ((seed + off + i) % 256))

/-- A pool and the fill seed of each block written since it was handed out. -/
structure PoolBench where
  pool : Pool
  seeds : List (Nat × Nat)

/-- The start of block `b`: `b` blocks past the base, taken round the word. -/
def blockAddress (p : Pool) (b : Nat) : Nat := (p.base + b * p.blockSize) % wordLimit

/-- The address a step names: the start of a block, or a signed offset from the base, taken round
the word. -/
def readAddress (p : Pool) (req : Value) : Except Failure Nat :=
  match req.field? "block" with
  | some _ => return blockAddress p (← wordField req "block")
  | none => do
    let off ← intField req "offset"
    return ((p.base + off) % wordLimit).toNat

/-- The block in use that a `fill` or `peek` names by its `block` field, read before anything
else of the step. -/
def liveBlock (p : Pool) (req : Value) : Except Failure Nat := do
  let addr := blockAddress p (← wordField req "block")
  match p.blockIndex addr with
  | some b => if p.isAllocated addr then .ok b else refuse "block not allocated"
  | none => refuse "block not allocated"

/-- A block index, or `null`. -/
def optionalNat : Option Nat → Value
  | some n => .nat n
  | none => .null

/-- Pool statistics as a value. -/
def statsValue (s : PoolStats) : Value :=
  object [("allocated", .nat s.allocated), ("free", .nat s.free)]

/-- One step on a live pool; `none` as the new state means the pool is finished. -/
def poolStep (w : PoolBench) (op : String) (req : Value) : Except Failure (Value × Option PoolBench) := do
  let p := w.pool
  if op == "alloc" then
    let size ← wordField req "size"
    let (addr, p) ← liftFault (p.alloc size)
    let i := addr.bind p.blockIndex
    let seeds := match i with
      | some i => w.seeds.filter (·.1 != i)
      | none => w.seeds
    return (optionalNat i, some ⟨p, seeds⟩)
  else if op == "free" then
    let addr ← readAddress p req
    let p ← liftFault (p.free addr)
    return (.str "ok", some { w with pool := p })
  else if op == "is_allocated" then
    let addr ← readAddress p req
    return (.bool (p.isAllocated addr), some w)
  else if op == "block_index" then
    let addr ← readAddress p req
    return (optionalNat (p.blockIndex addr), some w)
  else if op == "stats" then return (statsValue p.stats, some w)
  else if op == "snapshot" then
    let s := p.snapshot
    return (object [("allocated", .arr (s.allocated.map Value.nat)), ("block_size", .nat s.blockSize),
      ("max_size", .nat s.maxSize)], some w)
  else if op == "capacity" then return (.nat p.capacity, some w)
  else if op == "block_size" then return (.nat p.blockSize, some w)
  else if op == "fill" then
    let b ← liveBlock p req
    let seed ← wordField req "seed"
    return (.str "ok", some { w with seeds := (b, seed) :: w.seeds.filter (·.1 != b) })
  else if op == "peek" then
    let b ← liveBlock p req
    let off ← wordField req "off"
    let len ← wordField req "len"
    if len > peekLimit ∨ off + len > p.blockSize then refuse "peek out of range"
    else
      match w.seeds.find? (·.1 == b) with
      | some (_, seed) => return (.str (patternHex seed off len), some w)
      | none => return (.str (String.ofList (List.replicate (2 * len) '0')), some w)
  else if op == "fini" then return (.str "ok", none)
  else refuse s!"unknown op {op}"

/-- One step on a pool or on a finished one. -/
def benchStep (w : Option PoolBench) (req : Value) : Except Failure (Value × Option PoolBench) := do
  let op ← strField req "op"
  match w with
  | none => refuse "already finished"
  | some w => poolStep w op req

/-- Answer a `dlc` request. -/
def poolRequest (req : Value) : Except Failure Value := do
  let blockSize ← wordField req "block_size"
  let maxSize ← wordField req "max_size"
  let g : Geometry := ⟨blockSize, maxSize⟩
  checkBlockLimit g
  let p ← liftHalt (Pool.init machineMap g)
  let ops ← arrField req "ops"
  let (_, rs) := runSteps (atomic benchStep) (some ⟨p, []⟩) ops []
  return object [("results", results rs)]

end ChunkRuntime.Wire
