import ChunkRuntime.Halt
import ChunkRuntime.Host
import ChunkRuntime.Num
import ChunkRuntime.Pool.Config

/-! A reserved region of address space: a run of whole pages at a base address, none of them
usable until committed. Reserving rounds the size up to whole pages and asks the system's `map`
for them, which places them at a base or refuses them with an error number; a zero size is
refused with error number zero before the system is asked. Committing and decommitting take a
page-aligned range, which must lie inside the region.

What committing does to memory is left to the system: `MemoryOps μ` gives the calls the
allocator makes on memory states `μ`, and `commitIn`, `decommitIn` make them. Committing opens
the range for reading and writing; decommitting throws its contents away and closes it again.
`commit` and `decommit` are the same calls on memory that is not recorded. -/

namespace ChunkRuntime

/-- The calls the allocator makes on memory states `μ`: open the `len` bytes from an address
for reading and writing or close them (`protect`), throw their contents away (`discard`), and
copy `len` bytes from one address to another (`copy`). -/
structure MemoryOps (μ : Type) where
  protect : μ → Nat → Nat → Bool → μ
  discard : μ → Nat → Nat → μ
  copy : μ → Nat → Nat → Nat → μ

/-- The calls on memory that is not recorded. -/
def MemoryOps.unrecorded : MemoryOps Unit := ⟨fun _ _ _ _ => (), fun _ _ _ => (), fun _ _ _ _ => ()⟩

/-- A reserved run of pages. -/
structure Region where
  base : Nat
  size : Nat
  deriving DecidableEq, Repr

namespace Region

variable {μ : Type}

/-- Reserve `size` bytes, rounded up to pages, where the system's `map` places them. -/
def reserve (map : Nat → Except Nat Nat) (size : Nat) : Except Halt Region := do
  if size = 0 then throw (.error (.outOfAddressSpace 0 0))
  let size ← Halt.ofFault (roundUp size pageSize)
  match map size with
  | .ok base => return ⟨base, size⟩
  | .error errno => throw (.error (.outOfAddressSpace size errno))

/-- The range `offset`, `len` is page aligned and inside the region. -/
def checkRange (r : Region) (offset len : Nat) : Except Fault Unit :=
  if offset % pageSize ≠ 0 ∨ len % pageSize ≠ 0 then .error (.unaligned offset len)
  else if offset + len < wordLimit ∧ offset + len ≤ r.size then .ok ()
  else .error (.outsideRegion offset len r.size)

/-- Make a range usable, over memory `m`. -/
def commitIn (mem : MemoryOps μ) (r : Region) (offset len : Nat) (m : μ) : Except Fault μ := do
  r.checkRange offset len
  return mem.protect m (r.base + offset) len true

/-- Give a range's pages back, over memory `m`: their contents go first, then access. -/
def decommitIn (mem : MemoryOps μ) (r : Region) (offset len : Nat) (m : μ) : Except Fault μ := do
  r.checkRange offset len
  let addr := r.base + offset
  return mem.protect (mem.discard m addr len) addr len false

/-- Make a range usable; its pages read as zero. -/
def commit (r : Region) (offset len : Nat) : Except Fault Unit := r.commitIn .unrecorded offset len ()

/-- Give a range's pages back; they are unusable again. -/
def decommit (r : Region) (offset len : Nat) : Except Fault Unit :=
  r.decommitIn .unrecorded offset len ()

end Region

end ChunkRuntime
