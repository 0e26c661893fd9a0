import ChunkRuntime.Json.Parse
import ChunkRuntime.Wire.Bitmap
import ChunkRuntime.Wire.Capi
import ChunkRuntime.Wire.Chain
import ChunkRuntime.Wire.Config
import ChunkRuntime.Wire.Core
import ChunkRuntime.Wire.Exit
import ChunkRuntime.Wire.Launch
import ChunkRuntime.Wire.Lock
import ChunkRuntime.Wire.Num
import ChunkRuntime.Wire.Pool
import ChunkRuntime.Wire.Region
import ChunkRuntime.Wire.RunLoop
import ChunkRuntime.Wire.Snapshot
import ChunkRuntime.Wire.Tracker

/-! Answering request lines. A line is read as JSON (a line that is not JSON is refused with the
reader's message); its `op` field picks the request, and the answer is written back as one line
of JSON with sorted keys. -/

namespace ChunkRuntime.Wire

open Json

/-- The answer to a request object. -/
def dispatch (req : Value) : Except Failure Value := do
  let op ← strField req "op"
  if op == "num" then numRequest req
  else if op == "bitmap" then bitmapRequest req
  else if op == "chain" then chainRequest req
  else if op == "dlc_config" then configRequest req
  else if op == "region" then regionRequest req
  else if op == "dlc" then poolRequest req
  else if op == "snapshot_json" then snapshotRequest req
  else if op == "core" then coreRequest req
  else if op == "tracker" then trackerRequest req
  else if op == "lock" then lockRequest req
  else if op == "run_loop" then runLoopRequest req
  else if op == "exit" then exitRequest req
  else if op == "launch" then launchRequest req
  else if op == "stack_size" then stackSizeRequest req
  else if op == "capi" then capiRequest req
  else refuse s!"unknown op {op}"

/-- The answer line for a request line. -/
def respond (line : String) : String :=
  match Json.parse line with
  | .error msg => (Failure.refused ("bad json: " ++ msg)).toValue.render
  | .ok req => (answer (dispatch req)).render

end ChunkRuntime.Wire
