import ChunkRuntime.Thread.Lock
import ChunkRuntime.Wire.Answer

/-! The `lock` request: steps on a fresh set of locks and its registry. Locks are named by their
numbers; a waiting take of a held lock is refused, as it would never end. -/

namespace ChunkRuntime.Wire

open Json

/-- The lock a step names. -/
def readLock (l : Locks) (req : Value) : Except Failure Nat := do
  let id ← wordField req "h"
  if l.exists? id then return id else refuse "unknown lock"

/-- Take a lock for a step, refusing a wait that would never end. -/
def acquireLock (l : Locks) (id : Nat) (wait : Bool) : Except Failure (Bool × Locks) :=
  match l.acquire id wait with
  | some r => .ok r
  | none => refuse "refused: would block forever"

/-- One step on the locks. -/
def lockStep (l : Locks) (req : Value) : Except Failure (Value × Locks) := do
  let op ← strField req "op"
  if op == "allocate" then
    let (id, l) := l.allocate
    return (.nat id, l)
  else if op == "new_unregistered" then
    let (id, l) := l.create
    return (.nat id, l)
  else if op == "free" then
    let id ← readLock l req
    let (r, l) := l.release id
    return (.bool r, l)
  else if op == "free_null" then return (.bool false, l)
  else if op == "contains" then
    let id ← readLock l req
    return (.bool (l.contains id), l)
  else if op == "outstanding" then return (.nat l.outstanding, l)
  else if op == "free_all" then
    let (n, l) := l.releaseAll
    return (.nat n, l)
  else if op == "acquire" then
    let id ← readLock l req
    let wait ← boolField req "wait"
    let (r, l) ← acquireLock l id wait
    return (.bool r, l)
  else if op == "release" then
    let id ← readLock l req
    return (.null, l.unlock id)
  else if op == "is_locked" then
    let id ← readLock l req
    return (.bool (l.isLocked id), l)
  else if op == "refs" then
    let id ← readLock l req
    return (.nat (if l.contains id then 1 else 0), l)
  else refuse s!"unknown op {op}"

/-- Answer a `lock` request. -/
def lockRequest (req : Value) : Except Failure Value := do
  let ops ← arrField req "ops"
  let (_, rs) := runSteps (atomic lockStep) {} ops []
  return object [("results", results rs)]

end ChunkRuntime.Wire
