import BoundSql.Numeric.Reading

/-!
# Blanks, comments and line ends

What may stand between the parts of a TOML document. A line ends with a line feed, with or
without a carriage return before it.
-/

namespace BoundSql

namespace Toml

/-- A space or a tab. -/
def isGap (c : Char) : Bool := c == ' ' || c == '\t'

def skipGap (cs : List Char) : List Char := cs.dropWhile isGap

/-- A tab, or any character but the ASCII control characters. -/
def isPlain (c : Char) : Bool := c == '\t' || (32 ≤ c.toNat && c.toNat != 127)

/-- A line end in front, and what follows it. -/
def takeNewline? : List Char → Option (List Char)
  | '\n' :: cs => some cs
  | '\r' :: '\n' :: cs => some cs
  | _ => none

/-- Drops a comment in front. -/
def skipComment : List Char → List Char
  | '#' :: cs => cs.dropWhile isPlain
  | cs => cs

/-- What may follow the last part of a line: blanks, a comment, and the end of the line. -/
def endLine? (cs : List Char) : Option (List Char) :=
  match skipComment (skipGap cs) with
  | [] => some []
  | cs => takeNewline? cs

/-- Drops blanks, line ends and comments; a comment must end with its line. -/
def skipLines : (fuel : Nat) → List Char → Option (List Char)
  | 0, cs => some cs
  | fuel + 1, cs =>
    match skipGap cs with
    | '#' :: cs =>
      match takeNewline? (cs.dropWhile isPlain) with
      | some cs => skipLines fuel cs
      | none => none
    | cs =>
      match takeNewline? cs with
      | some cs => skipLines fuel cs
      | none => some cs

end Toml

end BoundSql
