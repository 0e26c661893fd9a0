import ChunkRuntime.Chain
import ChunkRuntime.Decimal.Nearest
import ChunkRuntime.Decimal.Shortest
import ChunkRuntime.Error
import ChunkRuntime.Fault
import ChunkRuntime.Front.Door
import ChunkRuntime.Front.Handles
import ChunkRuntime.Front.Heap
import ChunkRuntime.Front.Tracker
import ChunkRuntime.Halt
import ChunkRuntime.Host
import ChunkRuntime.Json.FloatText
import ChunkRuntime.Json.Parse
import ChunkRuntime.Json.Reader
import ChunkRuntime.Json.Value
import ChunkRuntime.Num
import ChunkRuntime.Pool.Bitmap
import ChunkRuntime.Pool.Blocks
import ChunkRuntime.Pool.Config
import ChunkRuntime.Pool.Region
import ChunkRuntime.Pool.SnapshotText
import ChunkRuntime.Proofs.Bitmap
import ChunkRuntime.Proofs.BlockFlags
import ChunkRuntime.Proofs.Chain
import ChunkRuntime.Proofs.Pool
import ChunkRuntime.Proofs.UsedSet
import ChunkRuntime.Proofs.Door
import ChunkRuntime.Proofs.Geometry
import ChunkRuntime.Proofs.HeldPointers
import ChunkRuntime.Proofs.Pages
import ChunkRuntime.Proofs.Dispatch
import ChunkRuntime.Proofs.TaskSlots
import ChunkRuntime.Proofs.Migration
import ChunkRuntime.Proofs.Tracking
import ChunkRuntime.Text.Blank
import ChunkRuntime.Text.Extend
import ChunkRuntime.Text.Quoted
import ChunkRuntime.Text.Unprintable
import ChunkRuntime.Text.Word
import ChunkRuntime.Thread.Exit
import ChunkRuntime.Thread.Launch
import ChunkRuntime.Thread.Lock
import ChunkRuntime.Thread.RunLoop
import ChunkRuntime.Wire
import ChunkRuntime.Wire.Answer
import ChunkRuntime.Wire.Bitmap
import ChunkRuntime.Wire.Capi
import ChunkRuntime.Wire.Chain
import ChunkRuntime.Wire.Config
import ChunkRuntime.Wire.Core
import ChunkRuntime.Wire.Exit
import ChunkRuntime.Wire.Launch
import ChunkRuntime.Wire.Lock
import ChunkRuntime.Wire.Memory
import ChunkRuntime.Wire.Num
import ChunkRuntime.Wire.Pool
import ChunkRuntime.Wire.Region
import ChunkRuntime.Wire.RunLoop
import ChunkRuntime.Wire.Snapshot
import ChunkRuntime.Wire.Tasks
import ChunkRuntime.Wire.Tracker
import ChunkRuntime.Proofs.ExitCallbacks
import ChunkRuntime.Proofs.Interpreter
import ChunkRuntime.Proofs.Launch
import ChunkRuntime.Proofs.Reserve
import ChunkRuntime.Proofs.Settings
import ChunkRuntime.Proofs.LockRegistry
import ChunkRuntime.Proofs.Frames
import ChunkRuntime.Proofs.StartRuns
import ChunkRuntime.Proofs.JsonWords
import ChunkRuntime.Proofs.SnapshotJson
import ChunkRuntime.Proofs.JsonCodec
import ChunkRuntime.Proofs.SnapshotCodec
