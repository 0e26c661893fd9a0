/-! Faults are the ways an operation stops outright instead of answering: a word overflow, a
block index past the end, a free that the pool refuses, a page range that is not aligned. Each
carries what its message needs; `Fault.message` is the one place that spells them.

Words are natural numbers below `wordLimit`; `addWord`, `subWord` and `divWord` are the checked
word operations, failing exactly where 64-bit arithmetic would leave the word range. -/

namespace ChunkRuntime

/-- Every size, index and address is a word: below two to the sixty-four. -/
def wordLimit : Nat := Nat.pow 2 64

/-- A reason an operation stopped outright. -/
inductive Fault where
  | addOverflow
  | subOverflow
  | mulOverflow
  | divByZero
  | blockOutOfRange (index : Nat)
  | foreignFree
  | doubleFree (index : Nat)
  | unaligned (offset len : Nat)
  | outsideRegion (offset len size : Nat)
  | taskPanic
  | eventLimit
  | threadNameNul (position : Nat) (bytes : List Nat)
  deriving DecidableEq, Repr

/-- The text of a fault, with every address written as `<ptr>`. -/
def Fault.message : Fault → String
  | .addOverflow => "attempt to add with overflow"
  | .subOverflow => "attempt to subtract with overflow"
  | .mulOverflow => "attempt to multiply with overflow"
  | .divByZero => "attempt to divide by zero"
  | .blockOutOfRange i => s!"block #{i} out of range"
  | .foreignFree => "DLC free of <ptr>, which is not in the block region"
  | .doubleFree i => s!"DLCDoubleFree: block #{i} (<ptr>) is already free"
  | .unaligned o l => s!"range {o}+{l} is not page aligned"
  | .outsideRegion o l s => s!"range {o}+{l} is outside a region of {s} bytes"
  | .taskPanic => "task panic"
  | .eventLimit => "event limit reached"
  | .threadNameNul p bs =>
    "thread name may not contain interior null bytes: NulError(" ++ toString p ++ ", [" ++
      ", ".intercalate (bs.map toString) ++ "])"

/-- Word addition, failing when the sum leaves the word range. -/
def addWord (a b : Nat) : Except Fault Nat :=
  if a + b < wordLimit then .ok (a + b) else .error .addOverflow

/-- Word subtraction, failing below zero. -/
def subWord (a b : Nat) : Except Fault Nat :=
  if b ≤ a then .ok (a - b) else .error .subOverflow

/-- Word division, failing on a zero divisor. -/
def divWord (a b : Nat) : Except Fault Nat :=
  if b = 0 then .error .divByZero else .ok (a / b)

/-- Word multiplication, failing when the product leaves the word range. -/
def mulWord (a b : Nat) : Except Fault Nat :=
  if a * b < wordLimit then .ok (a * b) else .error .mulOverflow

theorem addWord_eq_ok {a b c : Nat} : addWord a b = .ok c ↔ a + b < wordLimit ∧ c = a + b := by
  unfold addWord
  by_cases h : a + b < wordLimit <;> simp [h, eq_comm]

theorem subWord_eq_ok {a b c : Nat} : subWord a b = .ok c ↔ b ≤ a ∧ c = a - b := by
  unfold subWord
  by_cases h : b ≤ a <;> simp [h, eq_comm]

theorem divWord_eq_ok {a b c : Nat} : divWord a b = .ok c ↔ b ≠ 0 ∧ c = a / b := by
  unfold divWord
  by_cases h : b = 0 <;> simp [h, eq_comm]

end ChunkRuntime
