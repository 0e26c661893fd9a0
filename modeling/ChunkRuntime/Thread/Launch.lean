import ChunkRuntime.Halt
import ChunkRuntime.Pool.Region

/-! Launching threads. A launched thread goes through its states: created, then (when it has a
run loop) with the loop installed, running its body, stopping, terminated. A process-wide
default stack size, zero for none, applies to threads launched without one; it may be zero or at
least `stackMin`.

Starting a thread refuses a name with a NUL in it (a fault, naming where the first NUL is), and
fails with the system's error number when its stack cannot be had: a size so large that adding
the guard page wraps around is an invalid argument, and one the system does not commit is
unavailable. Whether it commits is its answer, a parameter. -/

namespace ChunkRuntime

/-- Where a launched thread is in its life. -/
inductive LaunchState where
  | created
  | runLoopInstalled
  | running
  | stopping
  | terminated
  deriving DecidableEq, Repr

/-- The name of a launch state. -/
def LaunchState.name : LaunchState → String
  | .created => "Created"
  | .runLoopInstalled => "RunLoopInstalled"
  | .running => "Running"
  | .stopping => "Stopping"
  | .terminated => "Terminated"

/-- The least stack a thread may be given: the larger of the system's minimum and 32 KiB. -/
def stackMin : Nat := max 16384 0x8000

/-- Set the default stack size; zero clears it. -/
def checkDefaultStackSize (size : Nat) : Except Error Nat :=
  if size ≠ 0 ∧ size < stackMin then .error (.stackTooSmall size stackMin) else .ok size

/-- The default stack size, if one is set. -/
def defaultStackSize (stored : Nat) : Option Nat := if stored = 0 then none else some stored

/-- The size of the guard page below a thread's stack. -/
def guardSize : Nat := 4096

/-- The error number of a bad argument. -/
def invalidArgument : Nat := 22

/-- The error number of a resource that is not there to be had. -/
def unavailable : Nat := 11

/-- Whether a stack of `size` bytes can be had, else the error number, when the system
`commits` the requests it grants. -/
def stackFits (commits : Nat → Bool) (size : Nat) : Except Nat Unit :=
  let aligned := size / 64 * 64
  if wordLimit ≤ aligned + guardSize then .error invalidArgument
  else if !commits aligned then .error unavailable
  else .ok ()

/-- The UTF-8 bytes of a thread name, refused with a fault when one is NUL. -/
def checkThreadName (name : String) : Except Fault Unit :=
  let bytes := name.toUTF8.toList.map UInt8.toNat
  match bytes.findIdx? (· == 0) with
  | some i => .error (.threadNameNul i bytes)
  | none => .ok ()

/-- Check what a thread is started with: its name first, then its stack. -/
def checkSpawn (commits : Nat → Bool) (name : Option String) (stack : Option Nat) :
    Except Halt Unit := do
  match name with
  | some n => Halt.ofFault (checkThreadName n)
  | none => pure ()
  match stack with
  | some s =>
    match stackFits commits (max s stackMin) with
    | .ok () => pure ()
    | .error errno => throw (.error (.spawn errno))
  | none => pure ()

end ChunkRuntime
