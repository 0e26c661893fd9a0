import ChunkRuntime.Num
import ChunkRuntime.Wire.Answer

/-! The `num` request: `round_up` of `n` to a multiple of `to`, or `is_multiple_of` of `n` and
`of`, answered as `{"value": …}`. -/

namespace ChunkRuntime.Wire

open Json

/-- Answer a `num` request. -/
def numRequest (req : Value) : Except Failure Value := do
  let fn ← strField req "fn"
  if fn == "round_up" then
    let n ← wordField req "n"
    let step ← wordField req "to"
    let r ← liftFault (roundUp n step)
    return object [("value", .nat r)]
  else if fn == "is_multiple_of" then
    let n ← wordField req "n"
    let of ← wordField req "of"
    return object [("value", .bool (isMultipleOf n of))]
  else refuse s!"unknown fn {fn}"

end ChunkRuntime.Wire
