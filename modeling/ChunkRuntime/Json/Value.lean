import ChunkRuntime.Json.FloatText

/-! JSON values as this library reads and writes them. Numbers come in three kinds, as a reader
meets them: a natural number below `2 ^ 64`, a negative integer not below `-2 ^ 63`, and any
other number as a double. Objects keep their fields in the order given; looking a key up takes
its last occurrence. `object` builds an object with its keys sorted and each key once, which is
how every object this library writes is made; the writer keeps the stored order.

The writer escapes the quote, the backslash and the control characters and leaves every other
character as it is, and writes no blanks. -/

namespace ChunkRuntime.Json

/-- A JSON value. -/
inductive Value where
  | null
  | bool (b : Bool)
  | nat (n : Nat)
  | neg (i : Int)
  | float (x : Float)
  | str (s : String)
  | arr (items : List Value)
  | obj (fields : List (String × Value))
  deriving Inhabited

namespace Value

/-- The value of the last field named `key`, for an object. -/
def field? (v : Value) (key : String) : Option Value :=
  match v with
  | .obj fields => (fields.reverse.find? (·.1 == key)).map (·.2)
  | _ => none

/-- The fields of an object, the last occurrence of each key only, in key order. -/
def sortedFields (fields : List (String × Value)) : List (String × Value) :=
  let keep := fields.reverse.foldl
    (fun (acc : List (String × Value)) kv => if acc.any (·.1 == kv.1) then acc else kv :: acc) []
  keep.mergeSort (fun a b => decide (a.1 ≤ b.1))

/-- An integer as a value: a natural number or a negative one. -/
def ofInt (i : Int) : Value := if i < 0 then .neg i else .nat i.toNat

/-- A word: a non-negative integer below `2 ^ 64`. -/
def word? : Value → Option Nat
  | .nat n => some n
  | _ => none

/-- A signed 64-bit integer. -/
def integer? : Value → Option Int
  | .nat n => if n < Nat.pow 2 63 then some n else none
  | .neg i => some i
  | _ => none

/-- A boolean. -/
def bool? : Value → Option Bool
  | .bool b => some b
  | _ => none

/-- A string. -/
def str? : Value → Option String
  | .str s => some s
  | _ => none

/-- An array's items. -/
def arr? : Value → Option (List Value)
  | .arr xs => some xs
  | _ => none

end Value

/-- An object with sorted keys, each once (the last value given for it). -/
def object (fields : List (String × Value)) : Value := .obj (Value.sortedFields fields)

/-- Four lowercase hex digits of a code below `0x10000`. -/
def hex4 (n : Nat) : String :=
  let d (k : Nat) : Char := (Nat.toDigits 16 ((n / Nat.pow 16 k) % 16)).headD '0'
  String.ofList [d 3, d 2, d 1, d 0]

/-- Append the escaped text of `c` inside a written string. -/
def escapeChar (acc : String) (c : Char) : String :=
  match c with
  | '"' => acc ++ "\\\""
  | '\\' => acc ++ "\\\\"
  | '\n' => acc ++ "\\n"
  | '\r' => acc ++ "\\r"
  | '\t' => acc ++ "\\t"
  | c =>
    if c.toNat == 8 then acc ++ "\\b"
    else if c.toNat == 12 then acc ++ "\\f"
    else if c.toNat < 32 then acc ++ "\\u" ++ hex4 c.toNat
    else acc.push c

/-- Append a written string, quotes included. -/
def writeString (acc : String) (s : String) : String :=
  (s.foldl escapeChar (acc.push '"')).push '"'

mutual

/-- Append the written form of a value. -/
def Value.writeTo (acc : String) : Value → String
  | .null => acc ++ "null"
  | .bool b => acc ++ (if b then "true" else "false")
  | .nat n => acc ++ toString n
  | .neg i => acc ++ toString i
  | .float x => acc ++ floatText x
  | .str s => writeString acc s
  | .arr items => (Value.writeItems (acc.push '[') true items).push ']'
  | .obj fields => (Value.writeFields (acc.push '{') true fields).push '}'

/-- Append array items, comma separated. -/
def Value.writeItems (acc : String) (first : Bool) : List Value → String
  | [] => acc
  | v :: rest => Value.writeItems (Value.writeTo (if first then acc else acc.push ',') v) false rest

/-- Append object fields, comma separated. -/
def Value.writeFields (acc : String) (first : Bool) : List (String × Value) → String
  | [] => acc
  | (k, v) :: rest =>
    let acc := writeString (if first then acc else acc.push ',') k
    Value.writeFields (Value.writeTo (acc.push ':') v) false rest

end

/-- The written form of a value. -/
def Value.render (v : Value) : String := Value.writeTo "" v

end ChunkRuntime.Json
