import ChunkRuntime.Error
import ChunkRuntime.Fault

/-! An operation that may both fault and answer with an error stops with a `Halt`, which is one
or the other. -/

namespace ChunkRuntime

/-- Why an operation gave no value: it faulted, or it answered with an error. -/
inductive Halt where
  | fault (f : Fault)
  | error (e : Error)
  deriving DecidableEq, Repr

/-- A faulting step as a halting one. -/
def Halt.ofFault : Except Fault α → Except Halt α
  | .ok a => .ok a
  | .error f => .error (.fault f)

/-- An erring step as a halting one. -/
def Halt.ofError : Except Error α → Except Halt α
  | .ok a => .ok a
  | .error e => .error (.error e)

end ChunkRuntime
