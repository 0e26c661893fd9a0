import Mathlib
import ChunkRuntime.Proofs.Dispatch

/-! The slots of a run loop while one of its tasks runs. A dispatch takes the task `T` out of its
slot `i`, so the slot is empty for the run, and puts it back over whatever the slot then holds.
`runCalls` follows the adds and removes the running task makes on its loop, answering the slot
each add took; `taskAt` reads one slot.

An add takes the lowest empty slot, so it takes `i` exactly when every slot below `i` holds a
task, and at most one add can: once taken, `i` is full until `T` is back. Whatever else the run
adds stays where its add put it, unless a later call removes it; what was added into `i` is lost
when `T` is put back, and the count of tasks is one short of the adds for it
(`dispatch_puts_back`). On a loop whose only task sits in slot `0`, as the loop a thread starts
on, the first add of its task is lost that way (`added_task_lost_in_running_slot`). -/

namespace ChunkRuntime

namespace RunLoop

variable {τ : Type} (l : RunLoop τ)

/-- The task in slot `j`, if the slot exists and holds one. -/
def taskAt (j : Nat) : Option τ := (l.tasks[j]?).join

theorem nrTasks_eq : l.nrTasks = l.tasks.countP Option.isSome := by
  rw [nrTasks, ← List.countP_eq_length_filter, Array.countP_toList]

/-- Filling slot `j` of the table with `v` changes the count by what the slot held and `v`. -/
theorem nrTasks_set {j : Nat} (hj : j < l.tasks.size) (v : Option τ) :
    ({ l with tasks := l.tasks.set! j v } : RunLoop τ).nrTasks + (if (l.taskAt j).isSome then 1 else 0) =
      l.nrTasks + (if v.isSome then 1 else 0) := by
  have hc := Array.countP_set (p := Option.isSome) (a := v) hj
  have hle := Array.boole_getElem_le_countP (p := Option.isSome) hj
  simp only [nrTasks_eq, Array.set!_eq_setIfInBounds, Array.setIfInBounds, hj, dite_true, hc, taskAt,
    Array.getElem?_eq_getElem hj, Option.join_some]
  omega

theorem taskAt_set (j : Nat) (v : Option τ) (k : Nat) :
    ({ l with tasks := l.tasks.set! j v } : RunLoop τ).taskAt k =
      if j = k ∧ j < l.tasks.size then v else l.taskAt k := by
  simp only [taskAt, Array.set!_eq_setIfInBounds, Array.getElem?_setIfInBounds]
  by_cases hjk : j = k
  · subst hjk
    by_cases hj : j < l.tasks.size
    · simp [hj]
    · simp [hj]
  · simp [hjk]

/-! ### Adding takes the lowest empty slot -/

variable (u : τ)

theorem add_empty : l.taskAt (l.add u).1 = none := by
  unfold add
  split
  · next i h =>
    obtain ⟨hi, hnone, -⟩ := Array.findIdx?_eq_some_iff_getElem.1 h
    simp [taskAt, Array.getElem?_eq_getElem hi, Option.isNone_iff_eq_none.1 hnone]
  · simp [taskAt]

theorem add_lowest {k : Nat} (hk : k < (l.add u).1) : (l.taskAt k).isSome := by
  unfold add at hk
  split at hk
  · next i h =>
    obtain ⟨hi, -, hlow⟩ := Array.findIdx?_eq_some_iff_getElem.1 h
    have := hlow k hk
    simp only [Option.isNone_iff_eq_none, ← ne_eq, Option.ne_none_iff_isSome] at this
    simp [taskAt, Array.getElem?_eq_getElem (Nat.lt_trans hk hi), this]
  · next h =>
    have hall := Array.findIdx?_eq_none_iff.1 h
    have hmem := hall _ (Array.getElem_mem hk)
    simp only [Option.isNone_eq_false_iff] at hmem
    simp [taskAt, Array.getElem?_eq_getElem hk, hmem]

theorem taskAt_add (k : Nat) :
    (l.add u).2.taskAt k = if k = (l.add u).1 then some u else l.taskAt k := by
  unfold add
  split
  · next i h =>
    obtain ⟨hi, -, -⟩ := Array.findIdx?_eq_some_iff_getElem.1 h
    rw [taskAt_set]
    by_cases hk : k = i
    · simp [hk, hi]
    · simp [hk, Ne.symm hk]
  · by_cases hk : k = l.tasks.size
    · simp [taskAt, hk]
    · simp [taskAt, hk, Array.getElem?_push]

theorem nrTasks_add : (l.add u).2.nrTasks = l.nrTasks + 1 := by
  have hempty := add_empty l u
  unfold add at hempty ⊢
  split
  · next i h =>
    obtain ⟨hi, -, -⟩ := Array.findIdx?_eq_some_iff_getElem.1 h
    rw [h] at hempty
    have := nrTasks_set l hi (some u)
    simp only [hempty, Option.isSome_none, Option.isSome_some] at this
    simpa using this
  · simp [nrTasks_eq]

/-! ### Removing empties one slot -/

theorem remove_fst (j : Nat) : (l.remove j).1 = l.taskAt j := by
  unfold remove taskAt
  split
  · next t h => simp [h]
  · next h =>
    cases ht : l.tasks[j]? with
    | none => rfl
    | some o => cases o with
      | none => rfl
      | some t => exact absurd ht (h t)

theorem taskAt_remove (j k : Nat) :
    (l.remove j).2.taskAt k = if k = j then none else l.taskAt k := by
  unfold remove
  split
  · next t h =>
    have hj : j < l.tasks.size := (Array.getElem?_eq_some_iff.1 h).1
    rw [taskAt_set]
    by_cases hk : k = j
    · simp [hk, hj]
    · simp [hk, Ne.symm hk]
  · next h =>
    by_cases hk : k = j
    · subst hk
      simp only [if_true, taskAt]
      cases ht : l.tasks[k]? with
      | none => rfl
      | some o => cases o with
        | none => rfl
        | some t => exact absurd ht (h t)
    · simp [hk]

theorem nrTasks_remove (j : Nat) :
    (l.remove j).2.nrTasks + (if (l.remove j).1.isSome then 1 else 0) = l.nrTasks := by
  rw [remove_fst]
  unfold remove
  split
  · next t h =>
    have hj : j < l.tasks.size := (Array.getElem?_eq_some_iff.1 h).1
    have := nrTasks_set l hj none
    simpa using this
  · next h =>
    have : l.taskAt j = none := by
      unfold taskAt
      cases ht : l.tasks[j]? with
      | none => rfl
      | some o => cases o with
        | none => rfl
        | some t => exact absurd ht (h t)
    simp [this]

/-! ### Putting a task back -/

theorem taskAt_putBack {i : Nat} (hi : i < l.tasks.size) (t : τ) (k : Nat) :
    (l.putBack i t).taskAt k = if k = i then some t else l.taskAt k := by
  unfold putBack
  rw [if_pos hi, taskAt_set]
  by_cases hk : k = i
  · simp [hk, hi]
  · simp [hk, Ne.symm hk]

theorem nrTasks_putBack {i : Nat} (hi : i < l.tasks.size) (t : τ) :
    (l.putBack i t).nrTasks + (if (l.taskAt i).isSome then 1 else 0) = l.nrTasks + 1 := by
  unfold putBack
  rw [if_pos hi]
  simpa using nrTasks_set l hi (some t)

/-! ### A running task's calls on its loop -/

/-- A call a running task makes on its loop: add a task, or remove the task of a slot. -/
inductive TaskCall (τ : Type) where
  | add (u : τ)
  | remove (j : Nat)

/-- A task's calls in order on its loop: the slot each add took, in order, how many removes found
a task, and the loop they leave. -/
def runCalls : RunLoop τ → List (TaskCall τ) → List Nat × Nat × RunLoop τ
  | l, [] => ([], 0, l)
  | l, .add u :: calls =>
    let r := runCalls (l.add u).2 calls
    ((l.add u).1 :: r.1, r.2.1, r.2.2)
  | l, .remove j :: calls =>
    let r := runCalls (l.remove j).2 calls
    (r.1, (if (l.remove j).1.isSome then 1 else 0) + r.2.1, r.2.2)

/-- Every add puts one more task in, and every remove that finds one takes one out. -/
theorem nrTasks_runCalls (calls : List (TaskCall τ)) :
    (l.runCalls calls).2.2.nrTasks + (l.runCalls calls).2.1 = l.nrTasks + (l.runCalls calls).1.length := by
  induction calls generalizing l with
  | nil => simp [runCalls]
  | cons call calls ih =>
    cases call with
    | add u =>
      have h := ih (l.add u).2
      simp only [runCalls, List.length_cons] at h ⊢
      rw [nrTasks_add] at h
      omega
    | remove j =>
      have h := ih (l.remove j).2
      have hr := nrTasks_remove l j
      simp only [runCalls] at h ⊢
      omega

theorem size_runCalls (calls : List (TaskCall τ)) : l.tasks.size ≤ (l.runCalls calls).2.2.tasks.size := by
  induction calls generalizing l with
  | nil => exact Nat.le_refl _
  | cons call calls ih =>
    cases call with
    | add u => exact Nat.le_trans (size_le_add l u) (ih _)
    | remove j => exact Nat.le_trans (remove_size l j).ge (ih _)

/-- A task stays in its slot through calls that do not remove that slot: adds take empty slots
only. -/
theorem taskAt_runCalls_of_some {j : Nat} {U : τ} (hU : l.taskAt j = some U) (calls : List (TaskCall τ))
    (hrem : TaskCall.remove j ∉ calls) : (l.runCalls calls).2.2.taskAt j = some U := by
  induction calls generalizing l with
  | nil => exact hU
  | cons call calls ih =>
    cases call with
    | add u =>
      have hne : j ≠ (l.add u).1 := by
        rintro rfl
        rw [add_empty] at hU
        cases hU
      exact ih _ (by rw [taskAt_add, if_neg hne, hU]) (fun h => hrem (List.mem_cons_of_mem _ h))
    | remove k =>
      have hne : j ≠ k := fun h => hrem (h ▸ List.mem_cons_self)
      exact ih _ (by rw [taskAt_remove, if_neg hne, hU]) (fun h => hrem (List.mem_cons_of_mem _ h))

/-- A slot no call removes ends up holding a task exactly when it held one or an add took it, and
only an empty slot is taken, once. -/
theorem taskAt_runCalls_of_kept {j : Nat} (calls : List (TaskCall τ)) (hrem : TaskCall.remove j ∉ calls) :
    ((l.runCalls calls).2.2.taskAt j).isSome = ((l.taskAt j).isSome || decide (j ∈ (l.runCalls calls).1)) ∧
      (l.runCalls calls).1.count j ≤ (if (l.taskAt j).isSome then 0 else 1) := by
  induction calls generalizing l with
  | nil => simp [runCalls]
  | cons call calls ih =>
    cases call with
    | add u =>
      obtain ⟨h1, h2⟩ := ih (l := (l.add u).2) (fun h => hrem (List.mem_cons_of_mem _ h))
      simp only [runCalls, List.mem_cons, List.count_cons] at h1 h2 ⊢
      by_cases hj : j = (l.add u).1
      · subst hj
        simp only [taskAt_add, if_true, Option.isSome_some, add_empty] at h1 h2
        simp [h1, h2, add_empty]
      · rw [taskAt_add, if_neg hj] at h1 h2
        simp [h1, h2, hj, Ne.symm hj]
    | remove k =>
      have hne : j ≠ k := fun h => hrem (h ▸ List.mem_cons_self)
      obtain ⟨h1, h2⟩ := ih (l := (l.remove k).2) (fun h => hrem (List.mem_cons_of_mem _ h))
      rw [taskAt_remove, if_neg hne] at h1 h2
      exact ⟨h1, h2⟩

theorem runCalls_append (calls calls' : List (TaskCall τ)) :
    l.runCalls (calls ++ calls') =
      ((l.runCalls calls).1 ++ ((l.runCalls calls).2.2.runCalls calls').1,
        (l.runCalls calls).2.1 + ((l.runCalls calls).2.2.runCalls calls').2.1,
        ((l.runCalls calls).2.2.runCalls calls').2.2) := by
  induction calls generalizing l with
  | nil => simp [runCalls]
  | cons call calls ih =>
    cases call with
    | add u => simp [runCalls, ih]
    | remove j => simp [runCalls, ih, Nat.add_assoc]

/-! ### A dispatch -/

/-- Taking a completion for a slot that holds a task empties the slot: the dispatch is a remove
of the slot on the loop with the completion taken off its queue. -/
theorem next_eq_dispatch {l l₁ : RunLoop τ} {i : Nat} {st : Int} {T : τ}
    (hn : l.next = (.dispatch i st T, l₁)) :
    ∃ l₀ : RunLoop τ, l₀.tasks = l.tasks ∧ l₀.remove i = (some T, l₁) := by
  unfold next at hn
  split at hn
  · cases hn
  · split at hn
    · cases hn
    · dsimp only at hn
      split at hn
      · next t l' hr =>
        simp only [Prod.mk.injEq, Next.dispatch.injEq] at hn
        obtain ⟨⟨rfl, -, rfl⟩, rfl⟩ := hn
        refine ⟨_, ?_, hr⟩
        rfl
      · cases hn

/-- The loop a dispatch leaves for the run: the task's slot, which held it, is empty, the table is
as long, and it holds one task fewer. -/
theorem next_dispatch {l l₁ : RunLoop τ} {i : Nat} {st : Int} {T : τ}
    (hn : l.next = (.dispatch i st T, l₁)) :
    l.taskAt i = some T ∧ l₁.taskAt i = none ∧ l₁.tasks.size = l.tasks.size ∧
      l₁.nrTasks + 1 = l.nrTasks := by
  obtain ⟨l₀, htasks, hr⟩ := next_eq_dispatch hn
  have hfst := remove_fst l₀ i
  have hslot := taskAt_remove l₀ i i
  have hsize := remove_size l₀ i
  have hcount := nrTasks_remove l₀ i
  rw [hr] at hfst hslot hsize hcount
  refine ⟨?_, by simpa using hslot, hsize.trans (congrArg Array.size htasks), ?_⟩
  · simpa [taskAt, htasks] using hfst.symm
  · simpa [nrTasks_eq, htasks] using hcount

theorem lt_size_of_taskAt {j : Nat} {t : τ} (h : l.taskAt j = some t) : j < l.tasks.size := by
  by_contra hj
  simp [taskAt, Array.getElem?_eq_none (Nat.le_of_not_lt hj)] at h

variable {l} {i : Nat}

/-- Calls that never remove an empty slot's task take that slot at most once. -/
theorem count_runCalls_le_one (hempty : l.taskAt i = none) (calls : List (TaskCall τ))
    (hrem : TaskCall.remove i ∉ calls) : (l.runCalls calls).1.count i ≤ 1 := by
  have honce := (taskAt_runCalls_of_kept l calls hrem).2
  rw [hempty] at honce
  simpa using honce

/-- Putting the running task back into its slot after its calls: the count grew by the adds and
the task put back, less the removes that found a task and the add, if any, that took the slot. -/
theorem nrTasks_putBack_runCalls {calls : List (TaskCall τ)} (hempty : l.taskAt i = none)
    (hi : i < (l.runCalls calls).2.2.tasks.size) (T : τ) (hrem : TaskCall.remove i ∉ calls) :
    ((l.runCalls calls).2.2.putBack i T).nrTasks + (l.runCalls calls).1.count i +
      (l.runCalls calls).2.1 = l.nrTasks + 1 + (l.runCalls calls).1.length := by
  have hback := nrTasks_putBack _ hi T
  have hrun := nrTasks_runCalls l calls
  have honce := count_runCalls_le_one hempty calls hrem
  -- the slot holds a task after the run exactly when one add took it
  have hslot : (if ((l.runCalls calls).2.2.taskAt i).isSome then 1 else 0) =
      (l.runCalls calls).1.count i := by
    have hkept := (taskAt_runCalls_of_kept l calls hrem).1
    rw [hempty] at hkept
    rw [hkept]
    by_cases hmem : i ∈ (l.runCalls calls).1
    · have hpos := List.count_pos_iff.2 hmem
      simp only [Option.isSome_none, Bool.false_or, hmem, decide_true, if_true]
      omega
    · simp [hmem, List.count_eq_zero.2 hmem]
  omega

/-- What a dispatch of the task `T` from slot `i` leaves, when `T`'s run made the calls `calls` on
the loop `l₁` it was taken from, and the loop was `l` before: `T` is back in its slot, every
other slot holds what the run left in it, at most one add took slot `i`, and only when every
lower slot held a task; each task added is in the slot its add answered, unless a later call
removed it or that slot is `i`, where `T` is instead; and the count of tasks grew by the adds,
less the removes that found a task and the add that took slot `i`. -/
structure Dispatched (l : RunLoop τ) (i : Nat) (T : τ) (l₁ : RunLoop τ) (calls : List (TaskCall τ)) :
    Prop where
  running_back : ((l₁.runCalls calls).2.2.putBack i T).taskAt i = some T
  others : ∀ j, j ≠ i → ((l₁.runCalls calls).2.2.putBack i T).taskAt j = (l₁.runCalls calls).2.2.taskAt j
  taken_once : (l₁.runCalls calls).1.count i ≤ 1
  taken_when_full : ∀ pre U post, calls = pre ++ .add U :: post →
    ((l₁.runCalls pre).2.2.add U).1 = i → ∀ k < i, ((l₁.runCalls pre).2.2.taskAt k).isSome
  added : ∀ pre U post, calls = pre ++ .add U :: post →
    TaskCall.remove ((l₁.runCalls pre).2.2.add U).1 ∉ post →
    ((l₁.runCalls calls).2.2.putBack i T).taskAt ((l₁.runCalls pre).2.2.add U).1 =
      if ((l₁.runCalls pre).2.2.add U).1 = i then some T else some U
  count : ((l₁.runCalls calls).2.2.putBack i T).nrTasks + (l₁.runCalls calls).1.count i +
      (l₁.runCalls calls).2.1 = l.nrTasks + (l₁.runCalls calls).1.length

/-- Whatever a task taken out to run adds and removes, as long as it removes no task from its own
slot: it goes back into its slot over anything added there, and every other task added stays. -/
theorem dispatch_puts_back {l l₁ : RunLoop τ} {st : Int} {T : τ}
    (hn : l.next = (.dispatch i st T, l₁)) (calls : List (TaskCall τ))
    (hrem : TaskCall.remove i ∉ calls) : Dispatched l i T l₁ calls := by
  obtain ⟨hT, hempty, hsize₁, hcount₁⟩ := next_dispatch hn
  have hsize : i < (l₁.runCalls calls).2.2.tasks.size :=
    Nat.lt_of_lt_of_le (hsize₁ ▸ lt_size_of_taskAt l hT) (size_runCalls l₁ calls)
  refine ⟨?_, fun j hj => ?_, count_runCalls_le_one hempty calls hrem, ?_, ?_, ?_⟩
  · rw [taskAt_putBack _ hsize, if_pos rfl]
  · rw [taskAt_putBack _ hsize, if_neg hj]
  · intro pre U post hcalls hj k hk
    exact add_lowest _ U (hj ▸ hk)
  · intro pre U post hcalls hpost
    rw [taskAt_putBack _ hsize]
    by_cases hj : ((l₁.runCalls pre).2.2.add U).1 = i
    · simp [hj]
    · -- the task sits in the slot its add took, and nothing later takes it out
      rw [if_neg hj, if_neg hj, hcalls, runCalls_append]
      exact taskAt_runCalls_of_some _ (by rw [taskAt_add, if_pos rfl]) post hpost
  · have := nrTasks_putBack_runCalls hempty hsize T hrem
    omega

/-- A dispatch from slot `1` of a loop whose slot `0` is empty: the task's add takes slot `0`. -/
theorem dispatch_puts_back_below_gap :
    let l : RunLoop Nat := { channel := 0, tasks := #[none, some 1], queue := [⟨1, 0⟩], depth := 1 }
    let l₁ : RunLoop Nat := { channel := 0, tasks := #[none, none], depth := 1 }
    l.next = (.dispatch 1 0 1, l₁) ∧ TaskCall.remove 1 ∉ [TaskCall.add 2] ∧
      Dispatched l 1 1 l₁ [.add 2] :=
  ⟨rfl, by simp, dispatch_puts_back rfl _ (by simp)⟩

/-- The only task of a loop, taken out of slot `0` to run, adds a task: the add takes slot `0`,
empty while the task runs, and putting the task back overwrites the task added, so the loop
holds as many tasks as before the add. -/
theorem added_task_lost_in_running_slot :
    let l : RunLoop Nat := { channel := 0, tasks := #[some 1], queue := [⟨0, 1⟩], depth := 1 }
    let l₁ : RunLoop Nat := { channel := 0, tasks := #[none], depth := 1 }
    l.next = (.dispatch 0 1 1, l₁) ∧ (l₁.runCalls [.add 2]).1 = [0] ∧
      ((l₁.runCalls [.add 2]).2.2.putBack 0 1).taskAt 0 = some 1 ∧
      ((l₁.runCalls [.add 2]).2.2.putBack 0 1).nrTasks = l.nrTasks :=
  ⟨rfl, by decide +kernel, by decide +kernel, by decide +kernel⟩

end RunLoop

end ChunkRuntime
