import ChunkRuntime.Text.Extend
import ChunkRuntime.Text.Unprintable

/-! Quoting a text for a message: between double quotes, the NUL, tab, carriage return and line
feed become `\0`, `\t`, `\r`, `\n`, the backslash and the double quote get a backslash, and a
character that extends a grapheme or is not printable becomes `\u{…}` with its code point in
lowercase hex; every other character stands as itself. -/

namespace ChunkRuntime.Text

/-- Lowercase hex digits of a number, no leading zeros. -/
def hexDigits (n : Nat) : String := String.ofList (Nat.toDigits 16 n)

/-- The quoted form of one character. -/
def quoteChar (c : Char) : String :=
  match c with
  | '\x00' => "\\0"
  | '\t' => "\\t"
  | '\r' => "\\r"
  | '\n' => "\\n"
  | '\\' => "\\\\"
  | '"' => "\\\""
  | c =>
    if isGraphemeExtend c || isUnprintable c then "\\u" ++ "\x7b" ++ hexDigits c.toNat ++ "\x7d"
    else String.singleton c

/-- A text between double quotes, each character quoted. -/
def quote (s : String) : String :=
  (s.foldl (fun acc c => acc ++ quoteChar c) "\"").push '"'

end ChunkRuntime.Text
