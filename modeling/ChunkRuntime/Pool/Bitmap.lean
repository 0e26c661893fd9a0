import ChunkRuntime.Fault

/-! One bit per block, packed sixty-four to a word. A high bit is a free block and a low bit a
block in use, so a fresh map is all high and the first free block is the lowest set bit of the
first non-zero word. The bits past `len` in the last word stay low, so they never count as free.

Asking about a block at or past `len` faults with `blockOutOfRange` and changes nothing. -/

namespace ChunkRuntime

/-- Blocks per word of the map. -/
def chunkBits : Nat := 64

/-- A map of `len` blocks, each free or in use. -/
structure Bitmap where
  chunks : Array UInt64
  len : Nat

namespace Bitmap

/-- The word whose low `n` bits are set, for `n < 64`. -/
def lowMask (n : Nat) : UInt64 := (1 <<< n.toUInt64) - 1

/-- A map of `len` blocks, all free. -/
def new (len : Nat) : Bitmap :=
  let full := len / chunkBits
  let rem := len % chunkBits
  let chunks := Array.replicate full (0 - 1 : UInt64)
  { chunks := if rem = 0 then chunks else chunks.push (lowMask rem), len }

/-- Bit `b` of a word is set. -/
def wordBit (w : UInt64) (b : Nat) : Bool := (w >>> b.toUInt64) &&& 1 != 0

/-- The bit of block `i` as stored, without the range check. -/
def bit (m : Bitmap) (i : Nat) : Bool := wordBit (m.chunks.getD (i / chunkBits) 0) (i % chunkBits)

/-- Block `i` exists in the map. -/
def check (m : Bitmap) (i : Nat) : Except Fault Unit :=
  if i < m.len then .ok () else .error (.blockOutOfRange i)

/-- Block `i` is free. -/
def isFree (m : Bitmap) (i : Nat) : Except Fault Bool := do
  m.check i
  return m.bit i

/-- Set the bit of block `i`, without the range check. -/
def mark (m : Bitmap) (i : Nat) : Bitmap :=
  let b := (1 : UInt64) <<< (i % chunkBits).toUInt64
  { m with chunks := m.chunks.modify (i / chunkBits) (· ||| b) }

/-- Clear the bit of block `i`, without the range check. -/
def clear (m : Bitmap) (i : Nat) : Bitmap :=
  let b := (1 : UInt64) <<< (i % chunkBits).toUInt64
  { m with chunks := m.chunks.modify (i / chunkBits) (· &&& ~~~b) }

/-- Mark block `i` free. -/
def setHigh (m : Bitmap) (i : Nat) : Except Fault Bitmap := do
  m.check i
  return m.mark i

/-- Mark block `i` in use. -/
def setLow (m : Bitmap) (i : Nat) : Except Fault Bitmap := do
  m.check i
  return m.clear i

/-- The number of trailing zero bits of a non-zero word, looking at most `fuel` bits. -/
def trailingZeros : Nat → UInt64 → Nat
  | 0, _ => 0
  | fuel + 1, w => if w &&& 1 != 0 then 0 else trailingZeros fuel (w >>> (1 : UInt64)) + 1

/-- The set bits of a word. -/
def popCount (w : UInt64) : Nat := (List.range chunkBits).countP (wordBit w)

/-- The lowest free block, if any. -/
def firstFree (m : Bitmap) : Option Nat :=
  (m.chunks.toList.zipIdx.find? (·.1 != 0)).map fun (w, k) => k * chunkBits + trailingZeros 64 w

/-- The number of free blocks. -/
def countFree (m : Bitmap) : Nat := m.chunks.foldl (fun n w => n + popCount w) 0

/-- The number of blocks in use. -/
def countUsed (m : Bitmap) : Nat := m.len - m.countFree

/-- The map has no blocks. -/
def isEmpty (m : Bitmap) : Bool := m.len == 0

/-- The blocks in use of word `k`, ascending. -/
def usedIn (m : Bitmap) (w : UInt64) (k : Nat) : List Nat :=
  if w = 0 - 1 then []
  else (List.range chunkBits).filterMap fun b =>
    let i := k * chunkBits + b
    if i < m.len && !wordBit w b then some i else none

/-- The blocks in use, ascending. -/
def used (m : Bitmap) : List Nat :=
  m.chunks.toList.zipIdx.flatMap fun (w, k) => m.usedIn w k

/-- The map drawn as one character a block: `.` free, `#` in use. -/
def picture (m : Bitmap) : String :=
  (List.range m.len).foldl (fun s i => s.push (if m.bit i then '.' else '#')) "BlockBitmap[" |>.push ']'

end Bitmap

end ChunkRuntime
