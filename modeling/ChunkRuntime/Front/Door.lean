import ChunkRuntime.Front.Heap
import ChunkRuntime.Pool.Blocks

/-! The front door every allocation goes through. It holds an optional block pool, the state of
the system beneath it, and a table of hooks that may replace each of its three calls; its calls
on the system go through `SystemOps`. Unhooked, a request of exactly the block size is served
by the pool while it has a free block, and anything else by the heap; resizing a block moves it
to the heap (its bytes copied up to the new size) and gives the block back; freeing hands a
block back to the pool and anything else to the heap. The pool's region is mapped where the
system places it.

Resizing a block copies its bytes through the memory calls of `MemoryOps`; `defaultReallocIn`
makes them and `defaultRealloc` is the same resize on memory that is not recorded.

A hook is either the pool's own functions, which behave as the unhooked calls, or the counting
allocator: it counts every call it gets and serves from the heap alone, and it leaves alone any
pointer it did not hand out itself (counting that as foreign), so that resizing one gives null. -/

namespace ChunkRuntime

/-- An allocator that can be hooked into the front door. -/
inductive Hook where
  | pool
  | counting
  deriving DecidableEq, Repr

/-- The hooks in place for each call; `none` is the front door's own behaviour. -/
structure Table where
  alloc : Option Hook := none
  realloc : Option Hook := none
  free : Option Hook := none
  deriving DecidableEq, Repr

/-- At least one call is hooked. -/
def Table.isSet (t : Table) : Bool := t.alloc.isSome || t.realloc.isSome || t.free.isSome

/-- The counting allocator's tallies. -/
structure Counters where
  alloc : Nat := 0
  realloc : Nat := 0
  free : Nat := 0
  foreign : Nat := 0
  deriving DecidableEq, Repr

/-- The counting allocator: its tallies and the pointers it has handed out and not yet seen go. -/
structure Counting where
  counters : Counters := {}
  owned : List Nat := []
  deriving DecidableEq, Repr

/-- The front door's state, over system states `σ`. -/
structure FrontDoor (σ : Type) where
  table : Table := {}
  pool : Option Pool := none
  sys : σ
  counting : Counting := {}

namespace FrontDoor

variable {σ μ : Type} (S : SystemOps σ)

/-- Set up the pool; a second one is refused. -/
def initPool (d : FrontDoor σ) (g : Geometry) : Except Halt (FrontDoor σ) := do
  if d.pool.isSome then throw (.error .alreadyInitialized)
  let p ← Pool.init (S.map d.sys) g
  return { d with pool := some p }

/-- Release the pool. -/
def finiPool (d : FrontDoor σ) : Except Error (FrontDoor σ) :=
  match d.pool with
  | none => .error .notInitialized
  | some _ => .ok { d with pool := none }

/-- The pool's statistics, if there is a pool. -/
def stats (d : FrontDoor σ) : Option PoolStats := d.pool.map Pool.stats

/-- The address is a block in use. -/
def isAllocated (d : FrontDoor σ) (addr : Nat) : Bool :=
  match d.pool with
  | some p => p.isAllocated addr
  | none => false

/-- The unhooked `malloc`: a block when the size is right and one is free, else the heap. -/
def defaultMalloc (d : FrontDoor σ) (size : Nat) : Except Fault (Option Nat × FrontDoor σ) := do
  match d.pool with
  | some p =>
    let (addr, p) ← p.alloc size
    match addr with
    | some a => return (some a, { d with pool := some p })
    | none =>
      let (a, sys) := S.malloc d.sys size
      return (a, { d with pool := some p, sys })
  | none =>
    let (a, sys) := S.malloc d.sys size
    return (a, { d with sys })

/-- The unhooked `realloc` over memory `m`: a block moves to the heap, its first bytes copied
there up to the new size, and anything else is resized there. -/
def defaultReallocIn (mem : MemoryOps μ) (d : FrontDoor σ) (ptr : Option Nat) (size : Nat) (m : μ) :
    Except Fault (Option Nat × FrontDoor σ × μ) := do
  match d.pool, ptr with
  | some p, some a =>
    if p.isAllocated a then
      let (fresh, sys) := S.malloc d.sys size
      match fresh with
      | none => return (none, { d with sys }, m)
      | some b =>
        let m := mem.copy m a b (min p.blockSize size)
        let (p, m) ← p.freeIn mem a m
        return (some b, { d with pool := some p, sys }, m)
    else
      let (b, sys) := S.realloc d.sys ptr size
      return (b, { d with sys }, m)
  | _, _ =>
    let (b, sys) := S.realloc d.sys ptr size
    return (b, { d with sys }, m)

/-- The unhooked `realloc`: a block moves to the heap, anything else is resized there. -/
def defaultRealloc (d : FrontDoor σ) (ptr : Option Nat) (size : Nat) :
    Except Fault (Option Nat × FrontDoor σ) :=
  (d.defaultReallocIn S .unrecorded ptr size ()).map fun (b, e, _) => (b, e)

/-- The unhooked `free`: a block in use goes back to the pool, anything else to the heap. -/
def defaultFree (d : FrontDoor σ) (ptr : Option Nat) : Except Fault (FrontDoor σ) := do
  match d.pool, ptr with
  | some p, some a =>
    if p.isAllocated a then return { d with pool := some (← p.free a) }
    else return { d with sys := S.free d.sys ptr }
  | _, _ => return { d with sys := S.free d.sys ptr }

/-- The counting allocator's `malloc`. -/
def countingMalloc (d : FrontDoor σ) (size : Nat) : Option Nat × FrontDoor σ :=
  let c := d.counting
  let c := { c with counters := { c.counters with alloc := c.counters.alloc + 1 } }
  let (a, sys) := S.malloc d.sys size
  let c := match a with
    | some a => { c with owned := a :: c.owned }
    | none => c
  (a, { d with sys, counting := c })

/-- The counting allocator's `realloc`: only null or its own pointers are resized. -/
def countingRealloc (d : FrontDoor σ) (ptr : Option Nat) (size : Nat) : Option Nat × FrontDoor σ :=
  let c := d.counting
  let c := { c with counters := { c.counters with realloc := c.counters.realloc + 1 } }
  let mine := match ptr with
    | none => true
    | some a => c.owned.contains a
  if mine then
    let (b, sys) := S.realloc d.sys ptr size
    let kept := match ptr, b with
      | some a, none => if size = 0 then c.owned.erase a else c.owned
      | some a, some _ => c.owned.erase a
      | none, _ => c.owned
    let owned := match b with
      | some b => b :: kept
      | none => kept
    (b, { d with sys, counting := { c with owned } })
  else
    (none, { d with counting := { c with counters := { c.counters with foreign := c.counters.foreign + 1 } } })

/-- The counting allocator's `free`: only null or its own pointers are released. -/
def countingFree (d : FrontDoor σ) (ptr : Option Nat) : FrontDoor σ :=
  let c := d.counting
  let c := { c with counters := { c.counters with free := c.counters.free + 1 } }
  match ptr with
  | none => { d with sys := S.free d.sys ptr, counting := c }
  | some a =>
    if c.owned.contains a then
      { d with sys := S.free d.sys ptr, counting := { c with owned := c.owned.erase a } }
    else { d with counting := { c with counters := { c.counters with foreign := c.counters.foreign + 1 } } }

/-- The counting allocator reports the pointer as not its own. -/
def isForeign (d : FrontDoor σ) (ptr : Option Nat) : Bool :=
  match ptr with
  | none => false
  | some a => !d.counting.owned.contains a

/-- `malloc` through the hook in place. -/
def malloc (d : FrontDoor σ) (size : Nat) : Except Fault (Option Nat × FrontDoor σ) :=
  match d.table.alloc with
  | some .counting => .ok (d.countingMalloc S size)
  | _ => d.defaultMalloc S size

/-- `realloc` through the hook in place. -/
def realloc (d : FrontDoor σ) (ptr : Option Nat) (size : Nat) :
    Except Fault (Option Nat × FrontDoor σ) :=
  match d.table.realloc with
  | some .counting => .ok (d.countingRealloc S ptr size)
  | _ => d.defaultRealloc S ptr size

/-- `free` through the hook in place. -/
def free (d : FrontDoor σ) (ptr : Option Nat) : Except Fault (FrontDoor σ) :=
  match d.table.free with
  | some .counting => .ok (d.countingFree S ptr)
  | _ => d.defaultFree S ptr

/-- The block index of a block in use, for an address. -/
def blockOf (d : FrontDoor σ) (addr : Nat) : Option Nat :=
  match d.pool with
  | some p => if p.isAllocated addr then p.blockIndex addr else none
  | none => none

end FrontDoor

end ChunkRuntime
