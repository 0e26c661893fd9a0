import ChunkRuntime.Chain

/-! Thread exit callbacks. Each thread keeps a chain of callbacks, newest first, stamped with the
process-wide key that was current when it was started. The chain runs, newest first, when the
thread exits, or earlier on request; a chain whose stamp is no longer the current key is
stale and is dropped instead. Finalizing clears the key, so that every chain registered so
far goes stale; the next registration makes a fresh key.

While a thread is tearing down its chain is gone: a callback registered then runs at once,
and a request to run the chain does nothing. -/

namespace ChunkRuntime

/-- The process-wide key (zero when there is none) and the next fresh one. -/
structure ExitKeys where
  current : Nat := 0
  next : Nat := 1
  deriving DecidableEq, Repr

namespace ExitKeys

/-- The current key, made fresh when there is none. -/
def ensure (k : ExitKeys) : Nat × ExitKeys :=
  if k.current ≠ 0 then (k.current, k)
  else (k.next, { current := k.next, next := k.next + 1 })

/-- Clear the key. -/
def finalize (k : ExitKeys) : ExitKeys := { k with current := 0 }

end ExitKeys

/-- A thread's exit chain and the key it was stamped with. -/
structure ExitChain (α : Type) where
  key : Nat := 0
  callbacks : Chain α := Chain.empty

namespace ExitChain

variable {α : Type}

/-- Register a callback on a live chain; a stale chain is emptied first. -/
def register (k : ExitKeys) (c : ExitChain α) (f : α) : ExitKeys × ExitChain α :=
  let (key, k) := k.ensure
  let c := if c.key ≠ key then { key, callbacks := Chain.empty } else c
  (k, { c with callbacks := c.callbacks.push f })

/-- Take the callbacks to run now, newest first, leaving the chain empty. -/
def takeAll (k : ExitKeys) (c : ExitChain α) : List α × ExitChain α :=
  let items := if c.key ≠ k.current then [] else c.callbacks.items
  (items, { c with callbacks := Chain.empty })

/-- The callbacks a thread runs as it exits, newest first: none when the chain is stale. -/
def atExit (k : ExitKeys) (c : ExitChain α) : List α :=
  if c.key = 0 ∨ c.key ≠ k.current then [] else c.callbacks.items

/-- Register `f` on a thread whose chain is `chain`, `none` once the thread tears down. The key
is made sure of first; the callback then joins the chain, or, with no chain left, is answered
to run at once. -/
def registerOn (k : ExitKeys) (chain : Option (ExitChain α)) (f : α) :
    ExitKeys × Option (ExitChain α) × List α :=
  match chain with
  | some c =>
    let (k, c) := c.register k f
    (k, some c, [])
  | none => (k.ensure.2, none, [f])

/-- Run a thread's chain now: the callbacks to run, newest first, and the chain left behind;
nothing once the thread tears down. -/
def runNowOn (k : ExitKeys) : Option (ExitChain α) → List α × Option (ExitChain α)
  | some c =>
    let (items, c) := c.takeAll k
    (items, some c)
  | none => ([], none)

/-- The callbacks a thread's chain runs as the thread exits. -/
def exitOn (k : ExitKeys) : Option (ExitChain α) → List α
  | some c => c.atExit k
  | none => []

end ExitChain

end ChunkRuntime
