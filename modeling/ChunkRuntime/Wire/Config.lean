import ChunkRuntime.Pool.Config
import ChunkRuntime.Wire.Answer

/-! The `dlc_config` request: the two settings given as strings (or absent or `null` for unset),
read into a geometry and checked. -/

namespace ChunkRuntime.Wire

open Json

/-- The settings an `env` object gives: each key's string, or unset. -/
def readSettings (req : Value) : Except Failure (List (String × String)) := do
  let env := (req.field? "env").getD .null
  let one (key : String) : Except Failure (List (String × String)) :=
    match env.field? key with
    | none | some .null => .ok []
    | some (.str s) =>
      if s.any (· == '\x00') then refuse "environment values may not contain NUL" else .ok [(key, s)]
    | some _ => refuse s!"env.{key}: expected a string or null"
  let b ← one blockSizeKey
  let m ← one maxSizeKey
  return b ++ m

/-- A lookup in a list of settings. -/
def lookupIn (settings : List (String × String)) (key : String) : Option String :=
  (settings.find? (·.1 == key)).map (·.2)

/-- The answer of `validate`. -/
def checked : Except Error Unit → Value
  | .ok () => .str "ok"
  | .error e => (Failure.error e).toValue

/-- Answer a `dlc_config` request. -/
def configRequest (req : Value) : Except Failure Value := do
  let settings ← readSettings req
  let g ← liftError (Geometry.fromLookup (lookupIn settings))
  return object [("block_size", .nat g.blockSize), ("max_size", .nat g.maxSize),
    ("max_blocks", answer ((liftFault g.maxBlocks).map Value.nat)), ("validate", checked g.validate)]

end ChunkRuntime.Wire
