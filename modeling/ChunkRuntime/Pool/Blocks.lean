import ChunkRuntime.Pool.Bitmap
import ChunkRuntime.Pool.Region

/-! The block pool: one reserved region carved into equal blocks, each committed when handed out
and decommitted when given back. Only requests of exactly the block size are served, always
with the lowest free block; any address inside a block names that block. Giving back an
address outside the region, or a block that is already free, faults.

Addresses are words. The blocks of a pool at `base` with block size `b` start at
`base + i * b` for `i` below the capacity. -/

namespace ChunkRuntime

/-- A block pool over its region. -/
structure Pool where
  region : Region
  bitmap : Bitmap
  blockSize : Nat

/-- How many blocks are in use and how many are free. -/
structure PoolStats where
  allocated : Nat
  free : Nat
  deriving DecidableEq, Repr

/-- The state of a pool as a picture: where its region is, its sizes and its blocks in use. -/
structure Snapshot where
  base : Nat
  blockSize : Nat
  maxSize : Nat
  allocated : List Nat
  deriving DecidableEq, Repr

namespace Pool

variable {μ : Type}

/-- Check the geometry, reserve its region where the system's `map` places it and start with
every block free. -/
def init (map : Nat → Except Nat Nat) (g : Geometry) : Except Halt Pool := do
  Halt.ofError g.validate
  let region ← Region.reserve map g.maxSize
  return ⟨region, Bitmap.new (g.maxSize / g.blockSize), g.blockSize⟩

/-- The number of blocks. -/
def capacity (p : Pool) : Nat := p.bitmap.len

/-- Where the region starts. -/
def base (p : Pool) : Nat := p.region.base

/-- The address of block `i`. -/
def addressOf (p : Pool) (i : Nat) : Nat := p.base + i * p.blockSize

/-- The block an address falls in, if it falls inside the region. -/
def blockIndex (p : Pool) (addr : Nat) : Option Nat :=
  if addr < p.base then none
  else
    let offset := addr - p.base
    if p.capacity * p.blockSize ≤ offset then none else some (offset / p.blockSize)

/-- Hand out the lowest free block, for a request of exactly the block size, committing it in
memory `m`. -/
def allocIn (mem : MemoryOps μ) (p : Pool) (size : Nat) (m : μ) :
    Except Fault (Option Nat × Pool × μ) :=
  if size ≠ p.blockSize then .ok (none, p, m)
  else
    match p.bitmap.firstFree with
    | none => .ok (none, p, m)
    | some i => do
      let m ← p.region.commitIn mem (i * p.blockSize) p.blockSize m
      let bitmap ← p.bitmap.setLow i
      return (some (p.addressOf i), { p with bitmap }, m)

/-- Give back the block an address falls in, decommitting it in memory `m`. -/
def freeIn (mem : MemoryOps μ) (p : Pool) (addr : Nat) (m : μ) : Except Fault (Pool × μ) :=
  match p.blockIndex addr with
  | none => .error .foreignFree
  | some i => do
    if ← p.bitmap.isFree i then throw (.doubleFree i)
    let m ← p.region.decommitIn mem (i * p.blockSize) p.blockSize m
    let bitmap ← p.bitmap.setHigh i
    return ({ p with bitmap }, m)

/-- Hand out the lowest free block, for a request of exactly the block size. -/
def alloc (p : Pool) (size : Nat) : Except Fault (Option Nat × Pool) :=
  (p.allocIn .unrecorded size ()).map fun (a, q, _) => (a, q)

/-- Give back the block an address falls in. -/
def free (p : Pool) (addr : Nat) : Except Fault Pool := (p.freeIn .unrecorded addr ()).map Prod.fst

/-- The address falls in a block that is in use. -/
def isAllocated (p : Pool) (addr : Nat) : Bool :=
  match p.blockIndex addr with
  | none => false
  | some i => !p.bitmap.bit i

/-- Blocks in use and blocks free. -/
def stats (p : Pool) : PoolStats :=
  let allocated := p.bitmap.countUsed
  ⟨allocated, p.capacity - allocated⟩

/-- The pool's picture. -/
def snapshot (p : Pool) : Snapshot := ⟨p.base, p.blockSize, p.region.size, p.bitmap.used⟩

end Pool

end ChunkRuntime
