import ChunkRuntime.Text.Blank

/-! Reading a word from text: after white space is trimmed from both ends, an optional `+` and
one or more ASCII digits whose value is below `2 ^ 64`. Leading zeros are allowed; a sign of
minus, a second sign, a digit of another script, a separator or an empty text is not. -/

namespace ChunkRuntime.Text

/-- The value of an ASCII digit. -/
def asciiDigit (c : Char) : Option Nat :=
  if '0' ≤ c ∧ c ≤ '9' then some (c.toNat - '0'.toNat) else none

/-- The value of a non-empty run of ASCII digits, most significant first. -/
def digitsValue : List Char → Option Nat
  | [] => none
  | c :: cs => cs.foldl (fun acc d => do let a ← acc; let v ← asciiDigit d; some (10 * a + v))
      (asciiDigit c)

/-- The word a text spells, if it spells one. -/
def parseWord (s : String) : Option Nat :=
  let cs := trim s.toList
  let ds := match cs with
    | '+' :: rest => rest
    | _ => cs
  (digitsValue ds).bind fun n => if n < Nat.pow 2 64 then some n else none

end ChunkRuntime.Text
