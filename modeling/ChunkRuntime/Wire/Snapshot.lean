import ChunkRuntime.Pool.SnapshotText
import ChunkRuntime.Wire.Answer

/-! The `snapshot_json` request: read a snapshot from JSON text and write it back. -/

namespace ChunkRuntime.Wire

open Json

/-- Answer a `snapshot_json` request. -/
def snapshotRequest (req : Value) : Except Failure Value := do
  let text ← strField req "json"
  match Snapshot.decode text with
  | .error msg => .error (.unreadable msg)
  | .ok s =>
    return object [("base", .nat s.base), ("block_size", .nat s.blockSize),
      ("max_size", .nat s.maxSize), ("allocated", .arr (s.allocated.map Value.nat)),
      ("json", .str s.encode)]

end ChunkRuntime.Wire
