import ChunkRuntime.Chain

/-! Thread locks and the registry of locks handed out. A lock is held or not; taking a free lock
succeeds, taking a held one without waiting fails, and taking a held one while waiting can only
end when another thread lets it go. Locks are numbered in the order they are made, and the
registry keeps the numbers of those it handed out and has not yet let go, newest first. -/

namespace ChunkRuntime

/-- Every lock made so far, by number, and the registry. -/
structure Locks where
  held : Array Bool := #[]
  registry : Chain Nat := Chain.empty

namespace Locks

/-- Make a new lock, free; answers its number. -/
def create (l : Locks) : Nat × Locks := (l.held.size, { l with held := l.held.push false })

/-- Make a new lock and register it. -/
def allocate (l : Locks) : Nat × Locks :=
  let (id, l) := l.create
  (id, { l with registry := l.registry.push id })

/-- Drop a lock from the registry; answers whether it was there. -/
def release (l : Locks) (id : Nat) : Bool × Locks :=
  let (r, registry) := l.registry.remove (· == id)
  (r.isSome, { l with registry })

/-- The registry holds the lock. -/
def contains (l : Locks) (id : Nat) : Bool := l.registry.items.contains id

/-- The number of registered locks. -/
def outstanding (l : Locks) : Nat := l.registry.len

/-- Drop every lock from the registry; answers how many there were. -/
def releaseAll (l : Locks) : Nat × Locks := (l.registry.len, { l with registry := Chain.empty })

/-- The lock exists. -/
def exists? (l : Locks) (id : Nat) : Bool := id < l.held.size

/-- The lock is held. -/
def isLocked (l : Locks) (id : Nat) : Bool := l.held.getD id false

/-- Take the lock: whether it was taken, or `none` when waiting for it could never end. -/
def acquire (l : Locks) (id : Nat) (wait : Bool) : Option (Bool × Locks) :=
  if l.isLocked id then
    if wait then none else some (false, l)
  else some (true, { l with held := l.held.set! id true })

/-- Let the lock go. -/
def unlock (l : Locks) (id : Nat) : Locks := { l with held := l.held.set! id false }

end Locks

end ChunkRuntime
