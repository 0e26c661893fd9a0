import ChunkRuntime.Error
import ChunkRuntime.Fault
import ChunkRuntime.Num
import ChunkRuntime.Text.Word

/-! The geometry of a block pool: the size of each block and of the whole region. It is read from
two settings, `DLC_BLOCK_SIZE` and `DLC_MAX_SIZE`, each falling back to its default when unset;
a setting that does not spell a word is an `invalidConfig` error naming it, the block size
checked first. A geometry is usable when the block is a whole number of pages and the region a
whole number of blocks, neither of them zero. -/

namespace ChunkRuntime

/-- The size of a memory page. -/
def pageSize : Nat := 4096

/-- The block size when none is set: a quarter of a mebibyte. -/
def defaultBlockSize : Nat := 256 * 1024

/-- The region size when none is set: sixty-four mebibytes. -/
def defaultMaxSize : Nat := 64 * 1024 * 1024

/-- The name of the block size setting. -/
def blockSizeKey : String := "DLC_BLOCK_SIZE"

/-- The name of the region size setting. -/
def maxSizeKey : String := "DLC_MAX_SIZE"

/-- Block and region sizes of a pool. -/
structure Geometry where
  blockSize : Nat
  maxSize : Nat
  deriving DecidableEq, Repr

namespace Geometry

/-- The default geometry. -/
def default : Geometry := ⟨defaultBlockSize, defaultMaxSize⟩

/-- One setting read from `lookup`: its default when unset, else the word it spells. -/
def setting (lookup : String → Option String) (key : String) (dflt : Nat) : Except Error Nat :=
  match lookup key with
  | none => .ok dflt
  | some value =>
    match Text.parseWord value with
    | some n => .ok n
    | none => .error (.invalidConfig key value)

/-- The geometry the settings describe. -/
def fromLookup (lookup : String → Option String) : Except Error Geometry := do
  let blockSize ← setting lookup blockSizeKey defaultBlockSize
  let maxSize ← setting lookup maxSizeKey defaultMaxSize
  return ⟨blockSize, maxSize⟩

/-- The number of blocks in the region; a zero block size faults. -/
def maxBlocks (g : Geometry) : Except Fault Nat := divWord g.maxSize g.blockSize

/-- The geometry is usable: whole pages to a block, whole blocks to the region. -/
def validate (g : Geometry) : Except Error Unit :=
  if isMultipleOf g.blockSize pageSize && isMultipleOf g.maxSize g.blockSize then .ok ()
  else .error (.invalidGeometry g.blockSize g.maxSize pageSize)

end Geometry

end ChunkRuntime
