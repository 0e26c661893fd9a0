import ChunkRuntime.Text.Quoted

/-! Errors are answers an operation gives instead of its value: the address space could not be
reserved, a geometry or a configuration value is unusable, the block pool is set up twice or not
at all, a run loop is installed twice, a stack is too small, a thread could not be started.
`Error.kind` names the case and `Error.message` gives its text. -/

namespace ChunkRuntime

/-- An operation's answer in place of its value. -/
inductive Error where
  | outOfAddressSpace (size errno : Nat)
  | invalidGeometry (blockSize maxSize pageSize : Nat)
  | invalidConfig (key value : String)
  | alreadyInitialized
  | notInitialized
  | runLoopInstalled
  | stackTooSmall (size min : Nat)
  | spawn (errno : Nat)
  deriving DecidableEq, Repr

/-- The name of the case. -/
def Error.kind : Error → String
  | .outOfAddressSpace .. => "OutOfAddressSpace"
  | .invalidGeometry .. => "InvalidGeometry"
  | .invalidConfig .. => "InvalidConfig"
  | .alreadyInitialized => "AlreadyInitialized"
  | .notInitialized => "NotInitialized"
  | .runLoopInstalled => "RunLoopInstalled"
  | .stackTooSmall .. => "StackTooSmall"
  | .spawn .. => "Spawn"

/-- The system's text for an error number. -/
def osErrorText : Nat → String
  | 11 => "Resource temporarily unavailable"
  | 12 => "Cannot allocate memory"
  | 22 => "Invalid argument"
  | n => s!"Unknown error {n}"

/-- The text of an error; a configuration value is shown quoted. -/
def Error.message : Error → String
  | .outOfAddressSpace size errno => s!"could not reserve {size} bytes of address space (errno {errno})"
  | .invalidGeometry b m p =>
    s!"block size {b} must be a multiple of the page size ({p}) and divide the region size {m}"
  | .invalidConfig key value => "invalid value " ++ Text.quote value ++ " for " ++ key
  | .alreadyInitialized => "the block allocator is already initialized"
  | .notInitialized => "the block allocator is not initialized"
  | .runLoopInstalled => "a run loop is already installed on this thread"
  | .stackTooSmall size min => s!"thread stack size {size} is below the minimum of {min}"
  | .spawn errno => "could not spawn thread: " ++ osErrorText errno ++ s!" (os error {errno})"

end ChunkRuntime
