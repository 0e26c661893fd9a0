import ChunkRuntime.Json.FloatText
import ChunkRuntime.Decimal.Nearest
import ChunkRuntime.Text.Quoted

/-! Reading JSON text byte by byte. A reader walks the bytes that are left, counting how many it
has taken; an error records that count, and its message gives it back as a line and a column
(bytes taken since the last line feed). An error about the byte just looked at, but not taken,
points one byte further.

This module holds the pieces every reader of the library shares: blanks, literal words,
strings with their escapes, numbers, and skipping a whole value. Numbers follow the quick rule
of `Decimal.scaleByPowerOfTen`; an integer that does not fit a word is read as a double. -/

namespace ChunkRuntime.Json

/-- What is wrong with the text itself. -/
inductive Malformed where
  | eofList
  | eofObject
  | eofString
  | eofValue
  | expectedColon
  | expectedListCommaOrEnd
  | expectedObjectCommaOrEnd
  | expectedIdent
  | expectedValue
  | invalidEscape
  | invalidNumber
  | numberOutOfRange
  | controlCharacter
  | keyMustBeString
  | loneLeadingSurrogate
  | trailingComma
  | trailingCharacters
  | unexpectedEndOfHexEscape
  | recursionLimit
  deriving DecidableEq, Repr

/-- The text of a syntax error. -/
def Malformed.message : Malformed → String
  | .eofList => "EOF while parsing a list"
  | .eofObject => "EOF while parsing an object"
  | .eofString => "EOF while parsing a string"
  | .eofValue => "EOF while parsing a value"
  | .expectedColon => "expected `:`"
  | .expectedListCommaOrEnd => "expected `,` or `]`"
  | .expectedObjectCommaOrEnd => "expected `,` or `\x7d`"
  | .expectedIdent => "expected ident"
  | .expectedValue => "expected value"
  | .invalidEscape => "invalid escape"
  | .invalidNumber => "invalid number"
  | .numberOutOfRange => "number out of range"
  | .controlCharacter => "control character (\\u0000-\\u001F) found while parsing a string"
  | .keyMustBeString => "key must be a string"
  | .loneLeadingSurrogate => "lone leading surrogate in hex escape"
  | .trailingComma => "trailing comma"
  | .trailingCharacters => "trailing characters"
  | .unexpectedEndOfHexEscape => "unexpected end of hex escape"
  | .recursionLimit => "recursion limit exceeded"

/-- What a reader found where it wanted something else. -/
inductive Found where
  | bool (b : Bool)
  | unsigned (n : Nat)
  | signed (i : Int)
  | float (x : Float)
  | str (s : String)
  | null
  | seq
  | map

/-- How a found value is named in a message. -/
def Found.message : Found → String
  | .bool b => s!"boolean `{b}`"
  | .unsigned n => s!"integer `{n}`"
  | .signed i => s!"integer `{i}`"
  | .float x => "floating point `" ++ floatText x ++ "`"
  | .str s => "string " ++ Text.quote s
  | .null => "null"
  | .seq => "sequence"
  | .map => "map"

/-- Why a text could not be read as what was wanted. -/
inductive Problem where
  | malformed (s : Malformed)
  | invalidType (found : Found) (expected : String)
  | invalidValue (found : Found) (expected : String)
  | invalidLength (n : Nat) (expected : String)
  | missingField (name : String)
  | duplicateField (name : String)

/-- The text of a problem, without its place. -/
def Problem.message : Problem → String
  | .malformed s => s.message
  | .invalidType f e => "invalid type: " ++ f.message ++ ", expected " ++ e
  | .invalidValue f e => "invalid value: " ++ f.message ++ ", expected " ++ e
  | .invalidLength n e => s!"invalid length {n}, expected " ++ e
  | .missingField n => "missing field `" ++ n ++ "`"
  | .duplicateField n => "duplicate field `" ++ n ++ "`"

/-- A problem and the number of bytes taken when it was found. -/
structure ReadError where
  problem : Problem
  index : Nat

/-- Line and column of a byte count: lines from one, columns counting the bytes since the last
line feed. -/
def position (bytes : List UInt8) (i : Nat) : Nat × Nat :=
  let before := bytes.take i
  let lineStart := (before.zipIdx.foldl (fun s p => if p.1 == 10 then p.2 + 1 else s) 0)
  (1 + before.count 10, i - lineStart)

/-- The message of an error in the text `bytes`. -/
def ReadError.message (bytes : List UInt8) (e : ReadError) : String :=
  let (line, column) := position bytes e.index
  e.problem.message ++ s!" at line {line} column {column}"

/-- The bytes not yet taken, how many have been, and how long the whole text is. -/
structure Input where
  rest : List UInt8
  index : Nat
  total : Nat

/-- A reader: takes bytes from the input, then gives a value or an error. -/
abbrev Read := StateT Input (Except ReadError)

/-- Enough steps for a reader that takes a byte each step: one more than the text's length. -/
def budget : Read Nat := do return (← get).total + 1

/-- Drop the leading bytes that satisfy `p`, adding how many to `n`. -/
def dropCounting (p : UInt8 → Bool) : List UInt8 → Nat → List UInt8 × Nat
  | [], n => ([], n)
  | b :: bs, n => if p b then dropCounting p bs (n + 1) else (b :: bs, n)

/-- The next byte, not taken. -/
def peekByte : Read (Option UInt8) := do return (← get).rest.head?

/-- Take one byte, if there is one. -/
def bump : Read Unit :=
  modify fun s => match s.rest with
    | [] => s
    | _ :: r => { s with rest := r, index := s.index + 1 }

/-- Take the next byte. -/
def nextByte : Read (Option UInt8) := do
  let b ← peekByte
  bump
  return b

/-- Fail at the bytes taken so far. -/
def failHere (p : Problem) : Read α := do throw ⟨p, (← get).index⟩

/-- Fail at the byte looked at: one further, unless the text has ended. -/
def failAhead (p : Problem) : Read α := do
  let s ← get
  throw ⟨p, if s.rest.isEmpty then s.index else s.index + 1⟩

/-- A syntax error at the bytes taken. -/
def malformedHere (s : Malformed) : Read α := failHere (.malformed s)

/-- A syntax error at the byte looked at. -/
def malformedAhead (s : Malformed) : Read α := failAhead (.malformed s)

/-- Blanks of JSON: space, line feed, tab and carriage return. -/
def isJsonBlank (b : UInt8) : Bool := b == 32 || b == 10 || b == 9 || b == 13

/-- A decimal digit's value. -/
def digitValue (b : UInt8) : Option Nat := if 48 ≤ b && b ≤ 57 then some (b.toNat - 48) else none

/-- Skip blanks; the next byte, not taken. -/
def skipBlank : Read (Option UInt8) := do
  let s ← get
  let (r, n) := dropCounting isJsonBlank s.rest 0
  set { s with rest := r, index := s.index + n }
  return r.head?

/-- Take the bytes of a literal word after its first, or fail as a word does. -/
def expectWord : List UInt8 → Read Unit
  | [] => pure ()
  | b :: bs => do
    match ← nextByte with
    | none => malformedHere .eofValue
    | some c => if c == b then expectWord bs else malformedHere .expectedIdent

/-- The value of a hex digit. -/
def hexValue (b : UInt8) : Option Nat :=
  if 48 ≤ b && b ≤ 57 then some (b.toNat - 48)
  else if 97 ≤ b && b ≤ 102 then some (b.toNat - 87)
  else if 65 ≤ b && b ≤ 70 then some (b.toNat - 55)
  else none

/-- Four hex digits, taken together. -/
def readHex4 : Read Nat := do
  let s ← get
  match s.rest with
  | a :: b :: c :: d :: r =>
    set { s with rest := r, index := s.index + 4 }
    match hexValue a, hexValue b, hexValue c, hexValue d with
    | some w, some x, some y, some z => return ((w * 16 + x) * 16 + y) * 16 + z
    | _, _, _, _ => malformedHere .invalidEscape
  | r =>
    set { s with rest := [], index := s.index + r.length }
    malformedHere .eofString

/-- The UTF-8 bytes of a code point. -/
def utf8Bytes (c : Nat) : List UInt8 := (String.singleton (Char.ofNat c)).toUTF8.toList

/-- The next byte, which must exist inside a string. -/
def peekInString : Read UInt8 := do
  match ← peekByte with
  | none => malformedHere .eofString
  | some b => return b

/-- The rest of a `\u` escape in a string that must be valid text: a pair of surrogates makes
one character, a lone surrogate is refused. -/
def readUnicodeEscape : Read (List UInt8) := do
  let n ← readHex4
  if 0xDC00 ≤ n && n ≤ 0xDFFF then malformedHere .loneLeadingSurrogate
  else if n < 0xD800 || 0xDBFF < n then return utf8Bytes n
  else
    let b ← peekInString
    bump
    if b != 92 then malformedHere .unexpectedEndOfHexEscape
    else
      let u ← peekInString
      bump
      if u != 117 then malformedHere .unexpectedEndOfHexEscape
      else
        let n2 ← readHex4
        if n2 < 0xDC00 || 0xDFFF < n2 then malformedHere .loneLeadingSurrogate
        else return utf8Bytes (((n - 0xD800) * 1024 + (n2 - 0xDC00)) + 0x10000)

/-- The bytes an escape stands for, after its backslash. -/
def readEscape : Read (List UInt8) := do
  match ← nextByte with
  | none => malformedHere .eofString
  | some c =>
    if c == 34 then return [34]
    else if c == 92 then return [92]
    else if c == 47 then return [47]
    else if c == 98 then return [8]
    else if c == 102 then return [12]
    else if c == 110 then return [10]
    else if c == 114 then return [13]
    else if c == 116 then return [9]
    else if c == 117 then readUnicodeEscape
    else malformedHere .invalidEscape

/-- An escape that is skipped: a `\u` needs four hex digits and nothing more. -/
def skipEscape : Read Unit := do
  match ← nextByte with
  | none => malformedHere .eofString
  | some c =>
    if c == 34 || c == 92 || c == 47 || c == 98 || c == 102 || c == 110 || c == 114 || c == 116 then
      pure ()
    else if c == 117 then do let _ ← readHex4
    else malformedHere .invalidEscape

/-- The bytes of a string after its opening quote, collected backwards, up to the closing quote. -/
def readStringBytes : Nat → List UInt8 → Read (List UInt8)
  | 0, acc => return acc
  | fuel + 1, acc => do
    match ← peekByte with
    | none => malformedHere .eofString
    | some b =>
      if b == 34 then do bump; return acc
      else if b == 92 then do
        bump
        let e ← readEscape
        readStringBytes fuel (e.reverse ++ acc)
      else if b < 32 then do bump; malformedHere .controlCharacter
      else do bump; readStringBytes fuel (b :: acc)

/-- A string after its opening quote. -/
def readString : Read String := do
  let bytes ← readStringBytes (← budget) []
  return (String.fromUTF8? (ByteArray.mk bytes.reverse.toArray)).getD ""

/-- Skip a string after its opening quote. -/
def skipStringBody : Nat → Read Unit
  | 0 => pure ()
  | fuel + 1 => do
    match ← peekByte with
    | none => malformedHere .eofString
    | some b =>
      if b == 34 then bump
      else if b == 92 then do bump; skipEscape; skipStringBody fuel
      else if b < 32 then malformedHere .controlCharacter
      else do bump; skipStringBody fuel

/-- Skip a string after its opening quote. -/
def skipString : Read Unit := do skipStringBody (← budget)

/-- A number as read: a word, a negative integer that fits a signed word, or a double. -/
inductive Number where
  | nat (n : Nat)
  | neg (i : Int)
  | float (x : Float)

/-- The found value of a number, for a message. -/
def Number.found : Number → Found
  | .nat n => .unsigned n
  | .neg i => .signed i
  | .float x => .float x

/-- The largest word. -/
def maxWord : Nat := Nat.pow 2 64 - 1

/-- The largest exponent a reader keeps. -/
def maxExponent : Int := Int.pow 2 31 - 1

/-- An exponent kept within the signed 32-bit range. -/
def clampExponent (e : Int) : Int := max (-(Int.pow 2 31)) (min maxExponent e)

/-- The double of a decimal, or an out-of-range error. -/
def fromParts (negative : Bool) (significand : Nat) (exponent : Int) : Read Float :=
  match Decimal.scaleByPowerOfTen negative significand exponent with
  | some f => pure f
  | none => malformedHere .numberOutOfRange

/-- Skip digits. -/
def skipDigits : Read Unit := do
  let s ← get
  let (r, n) := dropCounting (fun b => (digitValue b).isSome) s.rest 0
  set { s with rest := r, index := s.index + n }

/-- The digits of an exponent after its first; an exponent too large for 32 bits ends the
number as zero, or as an out-of-range error for a non-zero significand. -/
def readExponentDigits (negative : Bool) (significand : Nat) (start : Int) (up : Bool) :
    Nat → Nat → Read Float
  | 0, _ => pure 0
  | fuel + 1, e => do
    match (← peekByte).bind digitValue with
    | some d =>
      bump
      if maxExponent < ((e * 10 + d : Nat) : Int) then
        if significand != 0 && up then malformedHere .numberOutOfRange
        else do
          skipDigits
          return (if negative then -0.0 else 0.0)
      else readExponentDigits negative significand start up fuel (e * 10 + d)
    | none =>
      let final := clampExponent (if up then start + e else start - e)
      fromParts negative significand final

/-- An exponent, from its `e`. -/
def readExponent (negative : Bool) (significand : Nat) (start : Int) : Read Float := do
  bump
  let up ← match ← peekByte with
    | some 43 => do bump; pure true
    | some 45 => do bump; pure false
    | _ => pure true
  match ← nextByte with
  | none => malformedHere .eofValue
  | some b =>
    match digitValue b with
    | some d => readExponentDigits negative significand start up (← budget) d
    | none => malformedHere .invalidNumber

/-- The rest of a number once its digits no longer fit a word. -/
def readAfterOverflow (negative : Bool) (significand : Nat) (exponent : Int) : Read Float := do
  skipDigits
  match ← peekByte with
  | some 101 | some 69 => readExponent negative significand exponent
  | _ => fromParts negative significand exponent

/-- Fraction digits after the point. -/
def readFractionDigits (negative : Bool) (before : Int) : Nat → Nat → Int → Read Float
  | 0, sig, after => fromParts negative sig (before + after)
  | fuel + 1, sig, after => do
    match (← peekByte).bind digitValue with
    | some d =>
      if maxWord < sig * 10 + d then readAfterOverflow negative sig (before + after)
      else do bump; readFractionDigits negative before fuel (sig * 10 + d) (after - 1)
    | none =>
      if after == 0 then
        match ← peekByte with
        | some _ => malformedAhead .invalidNumber
        | none => malformedAhead .eofValue
      else
        match ← peekByte with
        | some 101 | some 69 => readExponent negative sig (before + after)
        | _ => fromParts negative sig (before + after)

/-- A fraction, from its point. -/
def readFraction (negative : Bool) (significand : Nat) (before : Int) : Read Float := do
  bump
  readFractionDigits negative before (← budget) significand 0

/-- Integer digits past what fits a word: each raises the exponent. -/
def readLongInteger (negative : Bool) (significand : Nat) : Nat → Int → Read Float
  | 0, e => fromParts negative significand e
  | fuel + 1, e => do
    match ← peekByte with
    | some b =>
      if (digitValue b).isSome then do bump; readLongInteger negative significand fuel (e + 1)
      else if b == 46 then readFraction negative significand e
      else if b == 101 || b == 69 then readExponent negative significand e
      else fromParts negative significand e
    | none => fromParts negative significand e

/-- What follows the integer digits: a fraction, an exponent, or the end of the number. -/
def readNumberTail (negative : Bool) (significand : Nat) : Read Number := do
  match ← peekByte with
  | some 46 => return .float (← readFraction negative significand 0)
  | some 101 | some 69 => return .float (← readExponent negative significand 0)
  | _ =>
    if !negative then return .nat significand
    else if 0 < significand && significand ≤ Nat.pow 2 63 then return .neg (-(significand : Int))
    else return .float (-(Decimal.nearest significand))

/-- Integer digits after the first. -/
def readIntegerDigits (negative : Bool) : Nat → Nat → Read Number
  | 0, sig => readNumberTail negative sig
  | fuel + 1, sig => do
    match (← peekByte).bind digitValue with
    | some d =>
      if maxWord < sig * 10 + d then
        return .float (← readLongInteger negative sig (← budget) 0)
      else do bump; readIntegerDigits negative fuel (sig * 10 + d)
    | none => readNumberTail negative sig

/-- A number from its first digit (after the minus sign of a negative one). -/
def readNumber (negative : Bool) : Read Number := do
  match ← nextByte with
  | none => malformedHere .eofValue
  | some 48 =>
    match (← peekByte).bind digitValue with
    | some _ => malformedAhead .invalidNumber
    | none => readNumberTail negative 0
  | some b =>
    match digitValue b with
    | some d => readIntegerDigits negative (← budget) d
    | none => malformedHere .invalidNumber

/-- Skip an exponent from its `e`. -/
def skipExponent : Read Unit := do
  bump
  match ← peekByte with
  | some 43 | some 45 => bump
  | _ => pure ()
  match (← nextByte).bind digitValue with
  | some _ => skipDigits
  | none => malformedHere .invalidNumber

/-- Skip a number from its first digit (after any minus sign). -/
def skipNumber : Read Unit := do
  match (← nextByte).bind digitValue with
  | some 0 =>
    if ((← peekByte).bind digitValue).isSome then malformedAhead .invalidNumber
  | some _ => skipDigits
  | none => malformedHere .invalidNumber
  match ← peekByte with
  | some 46 =>
    bump
    let s ← get
    skipDigits
    if (← get).index == s.index then malformedAhead .invalidNumber
    match ← peekByte with
    | some 101 | some 69 => skipExponent
    | _ => pure ()
  | some 101 | some 69 => skipExponent
  | _ => pure ()

/-- After a value inside containers (innermost first): take commas and closing brackets until
the next value is due. `none` when the outermost container has closed. -/
def skipClosing : Nat → Bool → List UInt8 → Read (Option (List UInt8))
  | 0, _, stack => return some stack
  | fuel + 1, acceptComma, stack =>
    match stack with
    | [] => return none
    | frame :: outer => do
      match ← skipBlank with
      | some b =>
        if b == 44 && acceptComma then do bump; return some stack
        else if (b == 93 && frame == 91) || (b == 125 && frame == 123) then do
          bump
          if outer.isEmpty then return none else skipClosing fuel true outer
        else if acceptComma then
          malformedAhead (if frame == 91 then .expectedListCommaOrEnd else .expectedObjectCommaOrEnd)
        else return some stack
      | none => malformedAhead (if frame == 91 then .eofList else .eofObject)

/-- Skip a whole value, whatever it holds, keeping open containers on a stack. -/
def skipValueFrom : Nat → List UInt8 → Read Unit
  | 0, _ => pure ()
  | fuel + 1, stack => do
    let opened ← match ← skipBlank with
      | none => malformedAhead .eofValue
      | some b =>
        if b == 110 then do bump; expectWord [117, 108, 108]; pure none
        else if b == 116 then do bump; expectWord [114, 117, 101]; pure none
        else if b == 102 then do bump; expectWord [97, 108, 115, 101]; pure none
        else if b == 45 then do bump; skipNumber; pure none
        else if (digitValue b).isSome then do skipNumber; pure none
        else if b == 34 then do bump; skipString; pure none
        else if b == 91 || b == 123 then do bump; pure (some b)
        else malformedAhead .expectedValue
    let next ← match opened with
      | some frame => skipClosing fuel false (frame :: stack)
      | none => if stack.isEmpty then pure none else skipClosing fuel true stack
    match next with
    | none => pure ()
    | some [] => pure ()
    | some (frame :: outer) =>
      if frame == 123 then do
        match ← skipBlank with
        | some 34 => bump
        | some _ => malformedAhead .keyMustBeString
        | none => malformedAhead .eofObject
        skipString
        match ← skipBlank with
        | some 58 => bump
        | some _ => malformedAhead .expectedColon
        | none => malformedAhead .eofObject
      skipValueFrom fuel (frame :: outer)

/-- Skip a whole value. -/
def skipValue : Read Unit := do skipValueFrom (2 * (← budget)) []

/-- Run a reader on a text's bytes from the start. -/
def Read.run' (r : Read α) (bytes : List UInt8) : Except ReadError (α × Input) :=
  StateT.run r { rest := bytes, index := 0, total := bytes.length }

end ChunkRuntime.Json
