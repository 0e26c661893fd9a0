import ChunkRuntime.Pool.Region
import ChunkRuntime.Wire.Answer

/-! The `region` request: reserve a region of `size` bytes and commit or decommit ranges of it. -/

namespace ChunkRuntime.Wire

open Json

/-- One step on a region. -/
def regionStep (r : Region) (req : Value) : Except Failure (Value × Region) := do
  let op ← strField req "op"
  if op == "commit" then
    let offset ← wordField req "offset"
    let len ← wordField req "len"
    liftFault (r.commit offset len)
    return (.str "ok", r)
  else if op == "decommit" then
    let offset ← wordField req "offset"
    let len ← wordField req "len"
    liftFault (r.decommit offset len)
    return (.str "ok", r)
  else if op == "size" then return (.nat r.size, r)
  else refuse s!"unknown op {op}"

/-- Answer a `region` request. -/
def regionRequest (req : Value) : Except Failure Value := do
  let size ← wordField req "size"
  let r ← liftHalt (Region.reserve machineMap size)
  let ops ← arrField req "ops"
  let (r, rs) := runSteps (atomic regionStep) r ops []
  return object [("size", .nat r.size), ("results", results rs)]

end ChunkRuntime.Wire
