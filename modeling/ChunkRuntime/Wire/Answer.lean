import ChunkRuntime.Halt
import ChunkRuntime.Json.Value

/-! The shape of answers on the wire. A request is a JSON object whose fields are read as they
are needed; a field of the wrong kind ends the request (or the step) with a refusal naming the
field and the kind wanted. A failed answer is an object with the kind of failure under `error`
and its text under `message`: a library error by its case name, a fault as `panic`, a refusal as
`driver`, a snapshot text that does not read as `serde`. -/

namespace ChunkRuntime.Wire

open Json

/-- Why a request or a step has no ordinary answer. -/
inductive Failure where
  | error (e : Error)
  | fault (f : Fault)
  | refused (message : String)
  | unreadable (message : String)

/-- The answer object of a failure. -/
def Failure.toValue : Failure → Value
  | .error e => object [("error", .str e.kind), ("message", .str e.message)]
  | .fault f => object [("error", .str "panic"), ("message", .str f.message)]
  | .refused m => object [("error", .str "driver"), ("message", .str m)]
  | .unreadable m => object [("error", .str "serde"), ("message", .str m)]

/-- A step's outcome as an answer: its value, or its failure's object. -/
def answer : Except Failure Value → Value
  | .ok v => v
  | .error f => f.toValue

/-- The kinds a field may be asked for. -/
inductive Kind where
  | word
  | integer
  | int32
  | boolean
  | string
  | array

/-- How a kind is named in a refusal. -/
def Kind.text : Kind → String
  | .word => "an unsigned integer"
  | .integer => "an integer"
  | .int32 => "a 32-bit integer"
  | .boolean => "a boolean"
  | .string => "a string"
  | .array => "an array"

/-- The refusal for a field of the wrong kind. -/
def badField (key : String) (k : Kind) : Failure :=
  .refused (s!"field {key}: expected " ++ k.text)

/-- Read a field of a request with `get`, refusing a missing or ill-kinded one. -/
def field (req : Value) (key : String) (k : Kind) (get : Value → Option α) : Except Failure α :=
  match (req.field? key).bind get with
  | some a => .ok a
  | none => .error (badField key k)

/-- A word field. -/
def wordField (req : Value) (key : String) : Except Failure Nat := field req key .word Value.word?

/-- A signed integer field. -/
def intField (req : Value) (key : String) : Except Failure Int := field req key .integer Value.integer?

/-- A 32-bit integer field: a signed integer first, refused as such, then one in range. -/
def int32Field (req : Value) (key : String) : Except Failure Int := do
  let i ← intField req key
  if -(Int.pow 2 31) ≤ i ∧ i < Int.pow 2 31 then .ok i else .error (badField key .int32)

/-- A boolean field. -/
def boolField (req : Value) (key : String) : Except Failure Bool := field req key .boolean Value.bool?

/-- A string field. -/
def strField (req : Value) (key : String) : Except Failure String := field req key .string Value.str?

/-- An array field. -/
def arrField (req : Value) (key : String) : Except Failure (List Value) :=
  field req key .array Value.arr?

/-- An array field that may be left out, which then reads as empty; one that is there must be an
array. -/
def optionalArrField (req : Value) (key : String) : Except Failure (List Value) :=
  match req.field? key with
  | none => .ok []
  | some _ => arrField req key

/-- A switch that may be left out; one that is there, `null` included, must be a boolean, and is
refused without the word "field". -/
def optionalSwitch (req : Value) (key : String) : Except Failure (Option Bool) :=
  match req.field? key with
  | none => .ok none
  | some v =>
    match v.bool? with
    | some b => .ok (some b)
    | none => .error (.refused (key ++ ": expected " ++ Kind.boolean.text))

/-- A fault as a failure. -/
def liftFault : Except Fault α → Except Failure α
  | .ok a => .ok a
  | .error f => .error (.fault f)

/-- A library error as a failure. -/
def liftError : Except Error α → Except Failure α
  | .ok a => .ok a
  | .error e => .error (.error e)

/-- A fault or an error as a failure. -/
def liftHalt : Except Halt α → Except Failure α
  | .ok a => .ok a
  | .error (.fault f) => .error (.fault f)
  | .error (.error e) => .error (.error e)

/-- A refusal. -/
def refuse (message : String) : Except Failure α := .error (.refused message)

/-- A list of step answers as a value. -/
def results (xs : List Value) : Value := .arr xs

/-- A step that either answers with a new state or fails and leaves the state alone. -/
def atomic (step : σ → Value → Except Failure (Value × σ)) (s : σ) (req : Value) :
    σ × Except Failure Value :=
  match step s req with
  | .ok (v, s') => (s', .ok v)
  | .error f => (s, .error f)

/-- Run steps in order, each on the state the one before left, collecting their answers. -/
def runSteps (step : σ → Value → σ × Except Failure Value) (s : σ) :
    List Value → List Value → σ × List Value
  | [], acc => (s, acc.reverse)
  | req :: rest, acc =>
    let (s', r) := step s req
    runSteps step s' rest (answer r :: acc)

end ChunkRuntime.Wire
