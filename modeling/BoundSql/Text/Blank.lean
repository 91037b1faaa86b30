/-!
# White space

The characters with the Unicode property White_Space, and trimming by them. The narrower class
`isSpacing` holds the four that may surround the parts of a short text such as a filter.
-/

namespace BoundSql

/-- The character has the Unicode property White_Space, which twenty-five characters have. -/
def isBlank (c : Char) : Bool :=
  let n := c.toNat
  (9 ≤ n && n ≤ 13) || n == 0x20 || n == 0x85 || n == 0xA0 || n == 0x1680 ||
    (0x2000 ≤ n && n ≤ 0x200A) || n == 0x2028 || n == 0x2029 || n == 0x202F || n == 0x205F ||
    n == 0x3000

/-- A space, tab, carriage return or line feed. -/
def isSpacing (c : Char) : Bool := c == ' ' || c == '\t' || c == '\r' || c == '\n'

/-- Drops white space in front. -/
def trimStart (cs : List Char) : List Char := cs.dropWhile isBlank

/-- Drops white space at both ends. -/
def trimBlank (cs : List Char) : List Char := (trimStart (trimStart cs).reverse).reverse

/-- Drops spacing in front. -/
def skipSpacing (cs : List Char) : List Char := cs.dropWhile isSpacing

/-- The class of core is contained in this one. -/
theorem isBlank_of_isWhitespace (c : Char) (h : c.isWhitespace = true) : isBlank c = true := by
  simp only [Char.isWhitespace, Bool.or_eq_true, decide_eq_true_eq] at h
  rcases h with ((h | h) | h) | h <;> subst h <;> decide

end BoundSql
