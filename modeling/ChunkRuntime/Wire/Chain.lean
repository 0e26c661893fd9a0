import ChunkRuntime.Chain
import ChunkRuntime.Wire.Answer

/-! The `chain` request: steps on a chain of signed 64-bit integers, answered with each step's
result and the chain's final values, newest first. -/

namespace ChunkRuntime.Wire

open Json

/-- The most values one `push_range` step may push. -/
def rangeLimit : Nat := 200000

/-- The test a step names: the first of `eq`, `ne`, `gt`, `lt` that holds an integer, else
`even` or `any` when the key is there, whatever it holds. -/
def readPred (req : Value) : Except Failure (Int → Bool) :=
  match req.field? "pred" with
  | none => refuse "missing pred"
  | some p =>
    let num (k : String) := (p.field? k).bind Value.integer?
    let flag (k : String) := (p.field? k).isSome
    match num "eq", num "ne", num "gt", num "lt" with
    | some x, _, _, _ => .ok (· == x)
    | none, some x, _, _ => .ok (· != x)
    | none, none, some x, _ => .ok (fun v => decide (v > x))
    | none, none, none, some x => .ok (fun v => decide (v < x))
    | none, none, none, none =>
      if flag "even" then .ok (fun v => v % 2 == 0)
      else if flag "any" then .ok (fun _ => true)
      else refuse "bad pred"

/-- A value or `null`. -/
def optionalInt : Option Int → Value
  | some i => Value.ofInt i
  | none => .null

/-- One step on a chain. -/
def chainStep (c : Chain Int) (req : Value) : Except Failure (Value × Chain Int) := do
  let op ← strField req "op"
  if op == "push" then
    let v ← intField req "v"
    let c := c.push v
    return (.nat c.len, c)
  else if op == "push_range" then
    let lo ← intField req "from"
    let hi ← intField req "to"
    if hi - lo > rangeLimit then refuse "range above 200000"
    else
      let c := (List.range (hi - lo).toNat).foldl (fun c k => c.push (lo + k)) c
      return (.nat c.len, c)
  else if op == "pop" then
    let (v, c) := c.pop
    return (optionalInt v, c)
  else if op == "len" then return (.nat c.len, c)
  else if op == "is_empty" then return (.bool c.isEmpty, c)
  else if op == "iter" then return (.arr (c.items.map Value.ofInt), c)
  else if op == "find_set" then
    let p ← readPred req
    let b ← intField req "to"
    let (v, c) := c.findSet p b
    return (optionalInt v, c)
  else if op == "remove" then
    let p ← readPred req
    let (v, c) := c.remove p
    return (optionalInt v, c)
  else refuse s!"unknown op {op}"

/-- Answer a `chain` request. -/
def chainRequest (req : Value) : Except Failure Value := do
  let ops ← arrField req "ops"
  let (c, rs) := runSteps (atomic chainStep) Chain.empty ops []
  return object [("results", results rs), ("final", .arr (c.items.map Value.ofInt))]

end ChunkRuntime.Wire
