import ChunkRuntime.Pool.Bitmap
import ChunkRuntime.Wire.Answer

/-! The `bitmap` request: a fresh map of `len` blocks (at most `2 ^ 24`) and steps on it. -/

namespace ChunkRuntime.Wire

open Json

/-- The most blocks a `bitmap` request may ask for. -/
def bitmapLimit : Nat := Nat.pow 2 24

/-- A step that only looks at a map. -/
def bitmapQuery (m : Bitmap) (op : String) (req : Value) : Except Failure Value := do
  if op == "is_free" then
    let i ← wordField req "i"
    return .bool (← liftFault (m.isFree i))
  else if op == "first_free" then return (m.firstFree.map Value.nat).getD .null
  else if op == "count_free" then return .nat m.countFree
  else if op == "count_used" then return .nat m.countUsed
  else if op == "len" then return .nat m.len
  else if op == "is_empty" then return .bool m.isEmpty
  else if op == "used" then return .arr (m.used.map Value.nat)
  else if op == "debug" then return .str m.picture
  else refuse s!"unknown op {op}"

/-- One step on a map. Marking a block is checked first, so that a refused step hands the map
back as it was and the map is changed in place. -/
def bitmapStep (m : Bitmap) (req : Value) : Bitmap × Except Failure Value :=
  match strField req "op" with
  | .error f => (m, .error f)
  | .ok op =>
    if op == "set_low" || op == "set_high" then
      match wordField req "i" with
      | .error f => (m, .error f)
      | .ok i =>
        match m.check i with
        | .error e => (m, .error (.fault e))
        | .ok () => (if op == "set_low" then m.clear i else m.mark i, .ok .null)
    else (m, bitmapQuery m op req)

/-- Answer a `bitmap` request. -/
def bitmapRequest (req : Value) : Except Failure Value := do
  let len ← wordField req "len"
  if len > bitmapLimit then refuse "len above 2^24"
  else
    let ops ← arrField req "ops"
    let (_, rs) := runSteps bitmapStep (Bitmap.new len) ops []
    return object [("results", results rs)]

end ChunkRuntime.Wire
