import BoundSql.Toml.Gap

/-!
# TOML strings and keys

Basic strings have escapes, literal strings have none, and both have a form over several lines
whose delimiter is three quotes. Line ends inside such a form count as line feeds, and one right
after the opening quotes does not count.
-/

namespace BoundSql

namespace Toml

/-- The character of a hexadecimal code, if there is one. -/
def codePoint? (digits : List Char) : Option Char :=
  match digits.mapM hexValue? with
  | none => none
  | some values =>
    let n := values.foldl (fun n v => 16 * n + v) 0
    if n < 0xD800 ∨ (0xDFFF < n ∧ n < 0x110000) then some (Char.ofNat n) else none

/-- The character that a letter after a backslash stands for. -/
def simpleEscape? (c : Char) : Option Char :=
  if c = 'b' then some (Char.ofNat 8)
  else if c = 't' then some '\t'
  else if c = 'n' then some '\n'
  else if c = 'f' then some (Char.ofNat 12)
  else if c = 'r' then some '\r'
  else if c = '"' ∨ c = '\\' then some c
  else none

/-- The character of an escape after its backslash, and the rest. -/
def takeEscape? : List Char → Option (Char × List Char)
  | [] => none
  | c :: cs =>
    let coded (width : Nat) : Option (Char × List Char) :=
      if cs.length < width then none
      else (codePoint? (cs.take width)).map fun e => (e, cs.drop width)
    if c = 'u' then coded 4
    else if c = 'U' then coded 8
    else (simpleEscape? c).map fun e => (e, cs)

/-- A basic string after its opening quote; `fuel` bounds the recursion. -/
def readBasic : (fuel : Nat) → List Char → Option (List Char × List Char)
  | 0, _ => none
  | _, [] => none
  | _, '"' :: cs => some ([], cs)
  | fuel + 1, '\\' :: cs =>
    match takeEscape? cs with
    | none => none
    | some (c, cs) => (readBasic fuel cs).map fun (s, rest) => (c :: s, rest)
  | fuel + 1, c :: cs =>
    if isPlain c then (readBasic fuel cs).map fun (s, rest) => (c :: s, rest) else none

/-- A literal string after its opening quote. -/
def readLiteral : List Char → Option (List Char × List Char)
  | [] => none
  | '\'' :: cs => some ([], cs)
  | c :: cs => if isPlain c then (readLiteral cs).map fun (s, rest) => (c :: s, rest) else none

/-- Drops blanks and line ends after a backslash that ends a line. -/
def skipFolded (cs : List Char) : List Char :=
  match cs with
  | '\r' :: '\n' :: rest => skipFolded rest
  | c :: rest => if isGap c || c == '\n' then skipFolded rest else c :: rest
  | [] => []

/--
Quotes at the end of a string over several lines: of a row of at least three the last three, of
at most five, close the string, and those before them belong to it.
-/
def closing? (quote : Char) (cs : List Char) : Option (List Char × List Char) :=
  let row := (cs.take 5).takeWhile (· == quote)
  if 3 ≤ row.length then some (row.drop 3, cs.drop row.length) else none

/-- A basic string over several lines after its opening quotes. -/
def readBasicLines : (fuel : Nat) → List Char → Option (List Char × List Char)
  | 0, _ => none
  | fuel + 1, cs =>
    let next (c : Char) (cs : List Char) : Option (List Char × List Char) :=
      (readBasicLines fuel cs).map fun (s, rest) => (c :: s, rest)
    match closing? '"' cs with
    | some found => some found
    | none =>
      match takeNewline? cs with
      | some cs => next '\n' cs
      | none =>
        match cs with
        | [] => none
        | '\\' :: cs =>
          match takeNewline? (skipGap cs) with
          | some cs => readBasicLines fuel (skipFolded cs)
          | none =>
            match takeEscape? cs with
            | some (c, cs) => next c cs
            | none => none
        | c :: cs => if isPlain c then next c cs else none

/-- A literal string over several lines after its opening quotes. -/
def readLiteralLines : (fuel : Nat) → List Char → Option (List Char × List Char)
  | 0, _ => none
  | fuel + 1, cs =>
    let next (c : Char) (cs : List Char) : Option (List Char × List Char) :=
      (readLiteralLines fuel cs).map fun (s, rest) => (c :: s, rest)
    match closing? '\'' cs with
    | some found => some found
    | none =>
      match takeNewline? cs with
      | some cs => next '\n' cs
      | none =>
        match cs with
        | [] => none
        | c :: cs => if isPlain c then next c cs else none

/-- Drops a line end right after opening quotes. -/
def skipFirstLine (cs : List Char) : List Char := (takeNewline? cs).getD cs

/-- A string of any form, and what follows it. -/
def readString (cs : List Char) : Option (List Char × List Char) :=
  match cs with
  | '"' :: '"' :: '"' :: cs => readBasicLines (cs.length + 1) (skipFirstLine cs)
  | '"' :: cs => readBasic (cs.length + 1) cs
  | '\'' :: '\'' :: '\'' :: cs => readLiteralLines (cs.length + 1) (skipFirstLine cs)
  | '\'' :: cs => readLiteral cs
  | _ => none

/-! ### Keys -/

/-- A character of a key without quotes. -/
def isBare (c : Char) : Bool := c.isAlphanum || c == '_' || c == '-'

/-- One part of a key. -/
def readKeyPart (cs : List Char) : Option (String × List Char) :=
  match cs with
  | '"' :: cs => (readBasic (cs.length + 1) cs).map fun (s, rest) => (String.ofList s, rest)
  | '\'' :: cs => (readLiteral cs).map fun (s, rest) => (String.ofList s, rest)
  | cs =>
    let word := cs.takeWhile isBare
    if word.isEmpty then none else some (String.ofList word, cs.dropWhile isBare)

/-- The parts of a key, set apart by points, with blanks around each part. -/
def readKeyParts : (fuel : Nat) → List Char → Option (List String × List Char)
  | 0, _ => none
  | fuel + 1, cs =>
    match readKeyPart (skipGap cs) with
    | none => none
    | some (part, cs) =>
      match skipGap cs with
      | '.' :: cs => (readKeyParts fuel cs).map fun (parts, rest) => (part :: parts, rest)
      | cs => some ([part], cs)

/-- How deep values nest and how many parts a key has, at most. -/
def depthLimit : Nat := 79

/-- A key: the parts before the last one, the last one, and what follows. -/
def readKey (cs : List Char) : Option (List String × String × List Char) :=
  match readKeyParts (cs.length + 1) cs with
  | none => none
  | some (parts, rest) =>
    if depthLimit < parts.length then none
    else parts.getLast?.map fun last => (parts.dropLast, last, rest)

end Toml

end BoundSql
