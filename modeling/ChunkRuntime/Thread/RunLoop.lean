import ChunkRuntime.Chain

/-! A run loop dispatches completions to tasks. Tasks sit in numbered slots; adding one takes
the lowest empty slot. A completion names a task and a status and waits in a queue until the
loop, while started, takes it: the task is taken out of its slot, run, and put back into the
slot afterwards, over whatever was put there in the meantime. A completion for an empty slot is
dropped. A loop runs until it is asked to stop; the request is cleared as it stops. A start with
no completion waiting and no stop requested waits for ever.

Each loop has its own channel; a completer sends on the channel of the loop it came from, and
fails once that loop is gone. -/

namespace ChunkRuntime

/-- A status for a task. -/
structure Completion where
  task : Nat
  status : Int
  deriving DecidableEq, Repr

/-- A run loop with tasks of type `τ`. -/
structure RunLoop (τ : Type) where
  channel : Nat
  tasks : Array (Option τ) := #[]
  queue : List Completion := []
  stopRequested : Bool := false
  depth : Nat := 0

/-- What a started loop does next. -/
inductive RunLoop.Next (τ : Type) where
  | stop
  | wait
  | skip
  | dispatch (task : Nat) (status : Int) (t : τ)

namespace RunLoop

variable {τ : Type}

/-- Put a task into the lowest empty slot; answers the slot. -/
def add (l : RunLoop τ) (t : τ) : Nat × RunLoop τ :=
  match l.tasks.findIdx? Option.isNone with
  | some i => (i, { l with tasks := l.tasks.set! i (some t) })
  | none => (l.tasks.size, { l with tasks := l.tasks.push (some t) })

/-- Empty a slot; answers what it held. -/
def remove (l : RunLoop τ) (i : Nat) : Option τ × RunLoop τ :=
  match l.tasks[i]? with
  | some (some t) => (some t, { l with tasks := l.tasks.set! i none })
  | _ => (none, l)

/-- The number of tasks in slots. -/
def nrTasks (l : RunLoop τ) : Nat := (l.tasks.toList.filter Option.isSome).length

/-- The loop is started. -/
def isRunning (l : RunLoop τ) : Bool := l.depth != 0

/-- Ask the loop to stop. -/
def stop (l : RunLoop τ) : RunLoop τ := { l with stopRequested := true }

/-- Queue a completion. -/
def enqueue (l : RunLoop τ) (c : Completion) : RunLoop τ := { l with queue := l.queue ++ [c] }

/-- Enter a start. -/
def enter (l : RunLoop τ) : RunLoop τ := { l with depth := l.depth + 1 }

/-- Leave a start, clearing the stop request. -/
def leave (l : RunLoop τ) : RunLoop τ := { l with stopRequested := false, depth := l.depth - 1 }

/-- The next thing a started loop does, with the completion or task it takes. -/
def next (l : RunLoop τ) : Next τ × RunLoop τ :=
  if l.stopRequested then (.stop, l)
  else
    match l.queue with
    | [] => (.wait, l)
    | c :: rest =>
      let l := { l with queue := rest }
      match l.remove c.task with
      | (some t, l) => (.dispatch c.task c.status t, l)
      | (none, l) => (.skip, l)

/-- Put a task back into its slot after its run, if the slot exists. -/
def putBack (l : RunLoop τ) (i : Nat) (t : τ) : RunLoop τ :=
  if i < l.tasks.size then { l with tasks := l.tasks.set! i (some t) } else l

end RunLoop

end ChunkRuntime
