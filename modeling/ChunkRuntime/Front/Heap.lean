import ChunkRuntime.Pool.Region

/-! The system beneath the front door, as the calls the door makes on it: the heap's `malloc`,
`realloc` and `free`, and the mapping of a pool's region. `SystemOps σ` gives them over system
states `σ`. What they answer is the system's: the door passes it on, and what a proof relies on
about it is a hypothesis of that proof.

`Heap` is the system the runnable program stands for. Every request its heap serves gets a
fresh address from its own range, which lies above every region; a request for as much writable
memory as the machine can commit gets nothing. Asking for nothing still gets an address.
Resizing a null pointer is a fresh request; resizing a pointer to nothing releases it and gives
null; a resize that cannot be served leaves the old pointer as it was. Regions are mapped as the
machine maps them. -/

namespace ChunkRuntime

/-- The calls on the system, with states `σ`: allocate, resize and release on the heap, and map
`size` bytes of address space at a base or refuse with an error number. -/
structure SystemOps (σ : Type) where
  malloc : σ → Nat → Option Nat × σ
  realloc : σ → Option Nat → Nat → Option Nat × σ
  free : σ → Option Nat → σ
  map : σ → Nat → Except Nat Nat

/-- Where heap addresses start: above every region. -/
def heapBase : Nat := Nat.pow 2 56

/-- The distance between two heap addresses handed out one after the other. -/
def heapStride : Nat := 16

/-- The heap: how many addresses it has handed out. -/
structure Heap where
  served : Nat := 0
  deriving DecidableEq, Repr

namespace Heap

/-- A request of `size` bytes can be served. -/
def fits (size : Nat) : Bool := machineCommits size

/-- Serve `size` bytes at a fresh address. -/
def malloc (h : Heap) (size : Nat) : Option Nat × Heap :=
  if fits size then (some (heapBase + heapStride * h.served), { served := h.served + 1 })
  else (none, h)

/-- Resize what `ptr` points at to `size` bytes, moving it to a fresh address. -/
def realloc (h : Heap) (ptr : Option Nat) (size : Nat) : Option Nat × Heap :=
  match ptr with
  | none => h.malloc size
  | some _ => if size = 0 then (none, h) else h.malloc size

/-- The runnable system: this heap, whose releases need no record, over the machine's mapping. -/
def system : SystemOps Heap := ⟨malloc, realloc, fun h _ => h, fun _ => machineMap⟩

end Heap

end ChunkRuntime
