import ChunkRuntime.Json.Parse
import ChunkRuntime.Pool.Blocks

/-! A snapshot as JSON text. Written, it is an object with the fields in the order `base`,
`block_size`, `max_size`, `allocated`. Read, it may be that object with its fields in any order
and unknown fields skipped, or an array of the four values in that order; each field must hold a
word (the base is named "an address" in messages, the others "usize"), the last one an array of
words.

A problem that the reader of a field finds with a value it has read is placed after that
value. A missing or repeated field, or an array too short, is only known to the reader of the
whole snapshot, and is placed where that reader stops: after the closing bracket if it comes
next, else after the blanks before whatever does. -/

namespace ChunkRuntime.Json

/-- A problem at the byte looked at, as a value. -/
def errorAhead (s : Malformed) : Read ReadError := do
  let st ← get
  return ⟨.malformed s, if st.rest.isEmpty then st.index else st.index + 1⟩

/-- Place the problem of a visit at the bytes taken so far. -/
def placed (r : Read (Except Problem α)) : Read α := do
  match ← r with
  | .ok a => return a
  | .error p => failHere p

/-- Read the value in the way of a typed read that wanted `expected`, and fail with what it was. -/
def invalidType (expected : String) : Read α := do
  match ← peekByte with
  | some 110 => do bump; expectWord [117, 108, 108]; failHere (.invalidType .null expected)
  | some 116 => do bump; expectWord [114, 117, 101]; failHere (.invalidType (.bool true) expected)
  | some 102 => do bump; expectWord [97, 108, 115, 101]; failHere (.invalidType (.bool false) expected)
  | some 45 => do bump; let n ← readNumber true; failHere (.invalidType n.found expected)
  | some 34 => do bump; let s ← readString; failHere (.invalidType (.str s) expected)
  | some 91 => failHere (.invalidType .seq expected)
  | some 123 => failHere (.invalidType .map expected)
  | some b =>
    if (digitValue b).isSome then do
      let n ← readNumber false
      failHere (.invalidType n.found expected)
    else malformedAhead .expectedValue
  | none => malformedAhead .expectedValue

/-- How a word field takes a negative integer. -/
inductive WordKind where
  | address
  | usize

/-- How a word field is named in a message. -/
def WordKind.expected : WordKind → String
  | .address => "an address"
  | .usize => "usize"

/-- A number as a word field sees it. -/
def WordKind.visit (k : WordKind) : Number → Except Problem Nat
  | .nat n => .ok n
  | .neg i =>
    match k with
    | .address => .error (.invalidType (.signed i) k.expected)
    | .usize => .error (.invalidValue (.signed i) k.expected)
  | .float x => .error (.invalidType (.float x) k.expected)

/-- A word field's value. -/
def readWordField (k : WordKind) : Read Nat := do
  match ← skipBlank with
  | none => malformedAhead .eofValue
  | some b =>
    if b == 45 then do bump; placed (return k.visit (← readNumber true))
    else if (digitValue b).isSome then placed (return k.visit (← readNumber false))
    else invalidType k.expected

/-- The end of an array: its closing bracket, taken. -/
def endSeq : Read (Except ReadError Unit) := do
  match ← skipBlank with
  | some 93 => do bump; return .ok ()
  | some 44 => do
    bump
    match ← skipBlank with
    | some 93 => return .error (← errorAhead .trailingComma)
    | _ => return .error (← errorAhead .trailingCharacters)
  | some _ => return .error (← errorAhead .trailingCharacters)
  | none => return .error (← errorAhead .eofList)

/-- The end of an object: its closing brace, taken. -/
def endMap : Read (Except ReadError Unit) := do
  match ← skipBlank with
  | some 125 => do bump; return .ok ()
  | some 44 => return .error (← errorAhead .trailingComma)
  | some _ => return .error (← errorAhead .trailingCharacters)
  | none => return .error (← errorAhead .eofObject)

/-- Whether another array element follows: the comma before it is taken. -/
def nextElement (first : Bool) : Read Bool := do
  match ← skipBlank with
  | some 93 => return false
  | some 44 =>
    if first then return true
    else do
      bump
      match ← skipBlank with
      | some 93 => malformedAhead .trailingComma
      | some _ => return true
      | none => malformedAhead .eofValue
  | some _ => if first then return true else malformedAhead .expectedListCommaOrEnd
  | none => malformedAhead .eofList

/-- Array elements that are words, collected backwards. -/
def readWordItems : Nat → Bool → List Nat → Read (List Nat)
  | 0, _, acc => return acc
  | fuel + 1, first, acc => do
    if ← nextElement first then
      let n ← readWordField .usize
      readWordItems fuel false (n :: acc)
    else return acc

/-- Close a container read by a visit: its own problem first, then one at its end. -/
def closing (r : Except Problem α) (e : Except ReadError Unit) : Read α :=
  match r, e with
  | .error p, _ => failHere p
  | .ok _, .error err => throw err
  | .ok a, .ok () => return a

/-- A field holding an array of words. -/
def readWordList : Read (List Nat) := do
  match ← skipBlank with
  | none => malformedAhead .eofValue
  | some 91 =>
    bump
    let items ← readWordItems (← budget) true []
    closing (.ok items.reverse) (← endSeq)
  | some _ => invalidType "a sequence"

/-- The fields of a snapshot read so far. -/
structure SnapshotFields where
  base : Option Nat := none
  blockSize : Option Nat := none
  maxSize : Option Nat := none
  allocated : Option (List Nat) := none

/-- The snapshot the fields make, or the first missing field. -/
def SnapshotFields.finish (f : SnapshotFields) : Except Problem Snapshot :=
  match f.base, f.blockSize, f.maxSize, f.allocated with
  | none, _, _, _ => .error (.missingField "base")
  | some _, none, _, _ => .error (.missingField "block_size")
  | some _, some _, none, _ => .error (.missingField "max_size")
  | some _, some _, some _, none => .error (.missingField "allocated")
  | some b, some s, some m, some a => .ok ⟨b, s, m, a⟩

/-- The key of the next field, its quote taken; `none` at the closing brace. -/
def nextKey (first : Bool) : Read (Option String) := do
  let peek : Option (Option UInt8) ← match ← skipBlank with
    | some 125 => pure none
    | some 44 =>
      if first then pure (some (some 44))
      else do bump; pure (some (← skipBlank))
    | some b => if first then pure (some (some b)) else malformedAhead .expectedObjectCommaOrEnd
    | none => malformedAhead .eofObject
  match peek with
  | none => return none
  | some (some 34) => do bump; return some (← readString)
  | some (some 125) => malformedAhead .trailingComma
  | some (some _) => malformedAhead .keyMustBeString
  | some none => malformedAhead .eofValue

/-- Object fields of a snapshot, up to the closing brace (not taken). -/
def readSnapshotFields : Nat → Bool → SnapshotFields → Read (Except Problem Snapshot)
  | 0, _, f => return f.finish
  | fuel + 1, first, f => do
    match ← nextKey first with
    | none => return f.finish
    | some key =>
      if key == "base" then
        if f.base.isSome then return .error (.duplicateField key)
        expectColon
        let v ← readWordField .address
        readSnapshotFields fuel false { f with base := some v }
      else if key == "block_size" then
        if f.blockSize.isSome then return .error (.duplicateField key)
        expectColon
        let v ← readWordField .usize
        readSnapshotFields fuel false { f with blockSize := some v }
      else if key == "max_size" then
        if f.maxSize.isSome then return .error (.duplicateField key)
        expectColon
        let v ← readWordField .usize
        readSnapshotFields fuel false { f with maxSize := some v }
      else if key == "allocated" then
        if f.allocated.isSome then return .error (.duplicateField key)
        expectColon
        let v ← readWordList
        readSnapshotFields fuel false { f with allocated := some v }
      else do
        expectColon
        skipValue
        readSnapshotFields fuel false f

/-- The expected form of a snapshot given as an array. -/
def snapshotArity : String := "struct DlcSnapshot with 4 elements"

/-- The four values of a snapshot given as an array. -/
def readSnapshotItems : Read (Except Problem Snapshot) := do
  if !(← nextElement true) then return .error (.invalidLength 0 snapshotArity)
  let b ← readWordField .address
  if !(← nextElement false) then return .error (.invalidLength 1 snapshotArity)
  let s ← readWordField .usize
  if !(← nextElement false) then return .error (.invalidLength 2 snapshotArity)
  let m ← readWordField .usize
  if !(← nextElement false) then return .error (.invalidLength 3 snapshotArity)
  let a ← readWordList
  return .ok ⟨b, s, m, a⟩

/-- A snapshot, as an object or an array. -/
def readSnapshot : Read Snapshot := do
  match ← skipBlank with
  | none => malformedAhead .eofValue
  | some 123 =>
    bump
    let r ← readSnapshotFields (← budget) true {}
    closing r (← endMap)
  | some 91 =>
    bump
    let r ← readSnapshotItems
    closing r (← endSeq)
  | some _ => invalidType "struct DlcSnapshot"

end ChunkRuntime.Json

namespace ChunkRuntime.Snapshot

open Json

/-- The snapshot a text holds, or the reader's message. -/
def decode (text : String) : Except String Snapshot :=
  let bytes := text.toUTF8.toList
  (Read.run' (do let s ← readSnapshot; expectEnd; return s) bytes).map (·.1) |>.mapError
    (·.message bytes)

/-- The snapshot as a JSON value, its fields in their written order. -/
def toValue (s : Snapshot) : Value :=
  .obj [("base", .nat s.base), ("block_size", .nat s.blockSize), ("max_size", .nat s.maxSize),
    ("allocated", .arr (s.allocated.map Value.nat))]

/-- The snapshot as JSON text. -/
def encode (s : Snapshot) : String := s.toValue.render

end ChunkRuntime.Snapshot
