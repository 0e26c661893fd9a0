import ChunkRuntime.Fault

/-! Page arithmetic. `roundUp n step` is the least multiple of `step` not below `n`, computed
as `step * ((n + step - 1) / step)` in checked words, so it faults in the order that expression
does: the sum first, then the decrement, then the division. `isMultipleOf n of` asks for a
non-zero multiple of a non-zero step. -/

namespace ChunkRuntime

/-- The least multiple of `step` that is at least `n`, evaluated as
`step * ((n + step - 1) / step)`. -/
def roundUp (n step : Nat) : Except Fault Nat := do
  let s ← addWord n step
  let d ← subWord s 1
  let q ← divWord d step
  return step * q

/-- `n` is a non-zero multiple of the non-zero `of`. -/
def isMultipleOf (n of : Nat) : Bool :=
  of != 0 && n != 0 && n % of == 0

theorem isMultipleOf_iff {n of : Nat} : isMultipleOf n of = true ↔ of ≠ 0 ∧ n ≠ 0 ∧ of ∣ n := by
  simp [isMultipleOf, Nat.dvd_iff_mod_eq_zero, and_assoc]

end ChunkRuntime
