import ChunkRuntime.Json.Reader
import ChunkRuntime.Json.Value

/-! Reading a whole JSON text as a `Value`. Arrays and objects may nest 127 deep; an object keeps
every field in the order read, and blanks may follow the value but nothing else. -/

namespace ChunkRuntime.Json

/-- The value of a number as read. -/
def Number.toValue : Number → Value
  | .nat n => .nat n
  | .neg i => .neg i
  | .float x => .float x

/-- The colon between a key and its value. -/
def expectColon : Read Unit := do
  match ← skipBlank with
  | some 58 => bump
  | some _ => malformedAhead .expectedColon
  | none => malformedAhead .eofObject

mutual

/-- One value, with `depth` levels of nesting still allowed. -/
def readValueAt : Nat → Nat → Read Value
  | 0, _ => malformedAhead .recursionLimit
  | fuel + 1, depth => do
    match ← skipBlank with
    | none => malformedAhead .eofValue
    | some b =>
      if b == 110 then do bump; expectWord [117, 108, 108]; return .null
      else if b == 116 then do bump; expectWord [114, 117, 101]; return .bool true
      else if b == 102 then do bump; expectWord [97, 108, 115, 101]; return .bool false
      else if b == 45 then do bump; return (← readNumber true).toValue
      else if (digitValue b).isSome then return (← readNumber false).toValue
      else if b == 34 then do bump; return .str (← readString)
      else if b == 91 then
        if depth ≤ 1 then malformedAhead .recursionLimit
        else do
          bump
          let items ← readItems fuel (depth - 1) true []
          bump
          return .arr items.reverse
      else if b == 123 then
        if depth ≤ 1 then malformedAhead .recursionLimit
        else do
          bump
          let fields ← readFields fuel (depth - 1) true []
          bump
          return .obj fields.reverse
      else malformedAhead .expectedValue

/-- Array items up to the closing bracket (not taken), collected backwards. -/
def readItems : Nat → Nat → Bool → List Value → Read (List Value)
  | 0, _, _, acc => return acc
  | fuel + 1, depth, first, acc => do
    match ← skipBlank with
    | some 93 => return acc
    | none => malformedAhead .eofList
    | some b =>
      if b == 44 && !first then
        bump
        match ← skipBlank with
        | some 93 => malformedAhead .trailingComma
        | some _ =>
          let v ← readValueAt fuel depth
          readItems fuel depth false (v :: acc)
        | none => malformedAhead .eofValue
      else if first then
        let v ← readValueAt fuel depth
        readItems fuel depth false (v :: acc)
      else malformedAhead .expectedListCommaOrEnd

/-- Object fields up to the closing brace (not taken), collected backwards. -/
def readFields : Nat → Nat → Bool → List (String × Value) → Read (List (String × Value))
  | 0, _, _, acc => return acc
  | fuel + 1, depth, first, acc => do
    match ← skipBlank with
    | some 125 => return acc
    | none => malformedAhead .eofObject
    | some b =>
      let key? ← if b == 44 && !first then do bump; skipBlank
        else if first then pure (some b)
        else malformedAhead .expectedObjectCommaOrEnd
      match key? with
      | some 34 =>
        bump
        let key ← readString
        expectColon
        let v ← readValueAt fuel depth
        readFields fuel depth false ((key, v) :: acc)
      | some 125 => malformedAhead .trailingComma
      | some _ => malformedAhead .keyMustBeString
      | none => malformedAhead .eofValue

end

/-- Nothing but blanks may follow a value. -/
def expectEnd : Read Unit := do
  match ← skipBlank with
  | some _ => malformedAhead .trailingCharacters
  | none => pure ()

/-- A whole text read as one value. -/
def parseBytes (bytes : List UInt8) : Except ReadError Value :=
  (Read.run' (do let v ← readValueAt (2 * bytes.length + 2) 128; expectEnd; return v) bytes).map (·.1)

/-- A whole text read as one value, or the message of the first error. -/
def parse (text : String) : Except String Value :=
  let bytes := text.toUTF8.toList
  (parseBytes bytes).mapError (·.message bytes)

end ChunkRuntime.Json
