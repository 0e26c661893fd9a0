import ChunkRuntime.Chain
import ChunkRuntime.Front.Heap

/-! The allocation tracker: heap allocation that, while tracking is on, records every pointer
it hands out in a chain, so that all of them can be swept at once. Resizing a recorded pointer
updates its record in place, and resizing an unrecorded one records the result; with tracking
off nothing is recorded or unrecorded, and a sweep does nothing. -/

namespace ChunkRuntime

/-- The tracker's state. -/
structure Tracker where
  live : Chain Nat := Chain.empty
  tracking : Bool := true
  heap : Heap := {}

namespace Tracker

/-- The number of recorded pointers. -/
def outstanding (t : Tracker) : Nat := t.live.len

/-- The pointer is recorded. -/
def isTracked (t : Tracker) (ptr : Nat) : Bool := t.live.items.contains ptr

/-- Record what the heap answered to an allocation: the pointer is recorded while tracking. -/
def noteMalloc (t : Tracker) (a : Option Nat) : Tracker :=
  match a with
  | some a => if t.tracking then { t with live := t.live.push a } else t
  | none => t

/-- Allocate from the heap, recording the pointer while tracking. -/
def malloc (t : Tracker) (size : Nat) : Option Nat × Tracker :=
  let (a, heap) := t.heap.malloc size
  (a, { t with heap }.noteMalloc a)

/-- Bring the records up to date, while tracking, after the heap resized `ptr` to `size` and
answered `r`: a pointer resized to nothing loses its record, a recorded pointer that was resized
has its record overwritten with the answer, and any other answer is recorded. -/
def noteRealloc (t : Tracker) (ptr : Option Nat) (size : Nat) (r : Option Nat) : Tracker :=
  if !t.tracking then t
  else
    match r, ptr with
    | none, some p => if size = 0 then { t with live := (t.live.remove (· == p)).2 } else t
    | none, none => t
    | some a, some p =>
      match t.live.findSet (· == p) a with
      | (some _, live) => { t with live }
      | (none, _) => { t with live := t.live.push a }
    | some a, none => { t with live := t.live.push a }

/-- Resize through the heap, keeping the records up to date while tracking. -/
def realloc (t : Tracker) (ptr : Option Nat) (size : Nat) : Option Nat × Tracker :=
  let (r, heap) := t.heap.realloc ptr size
  (r, { t with heap }.noteRealloc ptr size r)

/-- Release through the heap, dropping the record while tracking. -/
def free (t : Tracker) (ptr : Option Nat) : Tracker :=
  match ptr with
  | some p => if t.tracking then { t with live := (t.live.remove (· == p)).2 } else t
  | none => t

/-- The pointers a sweep hands back to the heap, in the order it takes them off the chain: every
record, newest first, while tracking, and none otherwise. -/
def swept (t : Tracker) : List Nat := if t.tracking then t.live.items else []

/-- Release every recorded pointer, while tracking; answers how many were swept. -/
def freeAll (t : Tracker) : Nat × Tracker :=
  (t.swept.length, if t.tracking then { t with live := Chain.empty } else t)

end Tracker

end ChunkRuntime
