/-! What the host system grants a process. Address space is reserved by a mapping, which the
system places at a base of its choosing or refuses with an error number, and writable memory is
committed a request at a time, or refused. The code that makes these calls takes the system's
answers as a parameter; `machineMap` and `machineCommits` are the answers of the machine the
runnable program stands for.

On that machine a reservation fails only when no free run of addresses is long enough, and the
longest run a fresh process has lies below the place where a position-independent program is
loaded. That place is two thirds up the 47-bit user address space, moved up by a random number
of pages spanning a terabyte; the run is taken as it is when the move is half of that. Writable
memory is committed against the machine's memory, and one request for more than the machine has
is refused outright: a heap request, or the stack of a new thread. -/

namespace ChunkRuntime

/-- The lowest address a position-independent program is loaded at: two thirds of the 47-bit
user address space, rounded down to a page. -/
def programBase : Nat := 0x555555554000

/-- How far above `programBase` the program is loaded, half of the terabyte its load address is
spread over. -/
def programShift : Nat := Nat.pow 2 39

/-- The lowest address a mapping may take. -/
def mappingFloor : Nat := 0x10000

/-- The longest run of address space a reservation can take: everything from the mapping floor
up to the program. -/
def mappableSize : Nat := programBase + programShift - mappingFloor

/-- The pages of memory the machine has, as its kernel counts them: a little under 32 GiB. -/
def memoryPages : Nat := 8234882

/-- The most writable memory one request can commit: the machine's memory, there being no swap;
a request fits when it is below it. -/
def commitLimit : Nat := memoryPages * 4096

/-- Where the machine places a region. -/
def regionBase : Nat := Nat.pow 2 44

/-- The error number of a refused mapping. -/
def noMemory : Nat := 12

/-- The machine's answer to a reservation of `size` bytes: a region at `regionBase` when the
longest free run holds it, else a refusal for want of memory. -/
def machineMap (size : Nat) : Except Nat Nat :=
  if mappableSize < size then .error noMemory else .ok regionBase

/-- The machine commits a request for less writable memory than it has. -/
def machineCommits (size : Nat) : Bool := decide (size < commitLimit)

end ChunkRuntime
