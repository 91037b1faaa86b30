import BoundSql.Json.Basic

/-!
# Writing JSON

Two layouts: `compact`, without any blank, and `pretty`, with one item or member a line and two
spaces of indentation a level. Empty arrays and objects stay on one line in both.
-/

namespace BoundSql

namespace Json

/-- A lower-case hexadecimal digit. -/
def hexDigit (n : Nat) : Char := if n < 10 then Char.ofNat (48 + n) else Char.ofNat (87 + n)

/-- A character as it stands in a string literal. -/
def escapeChar (c : Char) : List Char :=
  if c = '"' then ['\\', '"']
  else if c = '\\' then ['\\', '\\']
  else if c.toNat = 8 then ['\\', 'b']
  else if c.toNat = 9 then ['\\', 't']
  else if c.toNat = 10 then ['\\', 'n']
  else if c.toNat = 12 then ['\\', 'f']
  else if c.toNat = 13 then ['\\', 'r']
  else if c.toNat < 32 then
    ['\\', 'u', '0', '0', hexDigit (c.toNat / 16), hexDigit (c.toNat % 16)]
  else [c]

def stringText (s : String) : List Char := '"' :: s.toList.flatMap escapeChar ++ ['"']

def intText (n : Int) : List Char :=
  if n < 0 then '-' :: Nat.toDigits 10 n.natAbs else Nat.toDigits 10 n.natAbs

def floatText (x : Binary64) : List Char :=
  if x.isFinite then NumberFormat.json.finiteText x else "null".toList

/-- How the parts of an array or object are set apart. -/
structure Layout where
  /-- What stands before each item at a level. -/
  lineBreak : Nat → List Char
  /-- What stands between a key and its value. -/
  colon : List Char

def Layout.compact : Layout := ⟨fun _ => [], [':']⟩

def Layout.pretty : Layout := ⟨fun level => '\n' :: List.replicate (2 * level) ' ', [':', ' ']⟩

mutual
/-- The text of a document inside `level` arrays and objects. -/
def write (l : Layout) (level : Nat) : Json → List Char
  | null => "null".toList
  | bool b => if b then "true".toList else "false".toList
  | int n => intText n
  | float x => floatText x
  | string s => stringText s
  | array [] => ['[', ']']
  | array (j :: js) =>
    '[' :: l.lineBreak (level + 1) ++ write l (level + 1) j ++ writeItems l (level + 1) js
      ++ l.lineBreak level ++ [']']
  | object [] => ['\x7b', '\x7d']
  | object ((key, j) :: ms) =>
    '\x7b' :: l.lineBreak (level + 1) ++ stringText key ++ l.colon ++ write l (level + 1) j
      ++ writeMembers l (level + 1) ms ++ l.lineBreak level ++ ['\x7d']

/-- Further items, each after a comma. -/
def writeItems (l : Layout) (level : Nat) : List Json → List Char
  | [] => []
  | j :: js => ',' :: l.lineBreak level ++ write l level j ++ writeItems l level js

/-- Further members, each after a comma. -/
def writeMembers (l : Layout) (level : Nat) : List (String × Json) → List Char
  | [] => []
  | (key, j) :: ms =>
    ',' :: l.lineBreak level ++ stringText key ++ l.colon ++ write l level j
      ++ writeMembers l level ms
end

def compact (j : Json) : String := String.ofList (write .compact 0 j)

def pretty (j : Json) : String := String.ofList (write .pretty 0 j)

end Json

end BoundSql
