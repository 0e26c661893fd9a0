/-! The White_Space property of Unicode: the ASCII blanks and controls tab to carriage return,
next line, no-break space and the other space separators, and the line and paragraph
separators. `trim` removes such characters from both ends of a text. -/

namespace ChunkRuntime.Text

/-- Half-open code point ranges with the White_Space property. -/
def blankRanges : List (Nat × Nat) := [
  (9, 14), (32, 33), (133, 134), (160, 161), (5760, 5761), (8192, 8203), (8232, 8234),
  (8239, 8240), (8287, 8288), (12288, 12289)]

/-- The character is Unicode white space. -/
def isBlank (c : Char) : Bool :=
  blankRanges.any fun r => r.1 ≤ c.toNat && c.toNat < r.2

/-- The characters with white space removed from both ends. -/
def trim (cs : List Char) : List Char :=
  ((cs.dropWhile isBlank).reverse.dropWhile isBlank).reverse

theorem isBlank_of_isWhitespace {c : Char} (h : c.isWhitespace = true) : isBlank c = true := by
  simp only [Char.isWhitespace, Bool.or_eq_true, decide_eq_true_eq] at h
  rcases h with ((rfl | rfl) | rfl) | rfl <;> decide

end ChunkRuntime.Text
