import BoundSql.Toml.Number
import BoundSql.Toml.Quoted
import BoundSql.Toml.Tree

/-!
# Reading TOML

Values, then lines. A document is a row of lines, each with a key and its value, a header of a
table, or nothing but a comment; the keys after a header belong to its table.
-/

namespace BoundSql

namespace Toml

/-! ### Values -/

/-- A word in front of a text as a truth value. -/
def readWord (word : String) (b : Bool) (cs : List Char) : Option (Toml × List Char) :=
  if word.toList.isPrefixOf cs then some (bool b, cs.drop word.length) else none

mutual
/-- A value with at most `depth` arrays and tables inside one another; `fuel` bounds the recursion. -/
def readValue : (fuel depth : Nat) → List Char → Option (Toml × List Char)
  | 0, _, _ => none
  | _, _, [] => none
  | fuel + 1, depth, c :: cs =>
    if c = '"' ∨ c = '\'' then
      (readString (c :: cs)).map fun (s, rest) => (string (String.ofList s), rest)
    else if c = '[' then
      if depth = 0 then none
      else (readItems fuel (depth - 1) cs).map fun (items, rest) => (array items, rest)
    else if c = '\x7b' then
      if depth = 0 then none
      else
        match skipGap cs with
        | '\x7d' :: rest => some (table [], rest)
        | cs =>
          (readEntries fuel (depth - 1) (.table .header []) cs).map fun (n, rest) =>
            (n.toToml, rest)
    else if c = 't' then readWord "true" true (c :: cs)
    else if c = 'f' then readWord "false" false (c :: cs)
    else if startsCalendar (c :: cs) then readCalendar (c :: cs)
    else readNumber (c :: cs)

/-- The items of an array after its opening bracket or a comma. -/
def readItems : (fuel depth : Nat) → List Char → Option (List Toml × List Char)
  | 0, _, _ => none
  | fuel + 1, depth, cs =>
    match skipLines (cs.length + 1) cs with
    | none => none
    | some (']' :: rest) => some ([], rest)
    | some cs =>
      match readValue fuel depth cs with
      | none => none
      | some (v, cs) =>
        match skipLines (cs.length + 1) cs with
        | some (']' :: rest) => some ([v], rest)
        | some (',' :: cs) => (readItems fuel depth cs).map fun (vs, rest) => (v :: vs, rest)
        | _ => none

/-- The entries of a table between braces, added to an open table. -/
def readEntries : (fuel depth : Nat) → Node → List Char → Option (Node × List Char)
  | 0, _, _, _ => none
  | fuel + 1, depth, n, cs =>
    match readKey cs with
    | some (path, key, '=' :: cs) =>
      match readValue fuel depth (skipGap cs) with
      | none => none
      | some (v, cs) =>
        match n.addValue path key v with
        | none => none
        | some n =>
          match skipGap cs with
          | '\x7d' :: rest => some (n, rest)
          | ',' :: cs => readEntries fuel depth n cs
          | _ => none
    | _ => none
end

/-! ### Lines -/

/-- A document up to a line: its tables, and the path of the table that is open. -/
structure Progress where
  root : Node
  here : List String

/-- A header in brackets, after them. -/
def readHeader (close : List Char) (cs : List Char) :
    Option (List String × String × List Char) :=
  match readKey cs with
  | some (path, key, cs) =>
    if close.isPrefixOf cs then
      (endLine? (cs.drop close.length)).map fun rest => (path, key, rest)
    else none
  | none => none

/-- A key and its value, up to the end of the line. -/
def readAssignment (cs : List Char) : Option (List String × String × Toml × List Char) :=
  match readKey cs with
  | some (path, key, '=' :: cs) =>
    let cs := skipGap cs
    match readValue (2 * cs.length + 2) depthLimit cs with
    | some (v, cs) => (endLine? cs).map fun rest => (path, key, v, rest)
    | none => none
  | _ => none

/-- Adds a value to the open table. -/
def Progress.add (p : Progress) (path : List String) (key : String) (v : Toml) :
    Option Progress :=
  (Node.changeAt false (fun origin entries => Node.addValue path key v (.table origin entries))
    p.here p.root).map fun root => { p with root := root }

/-- The lines of a document; `fuel` bounds their number. -/
def readLines : (fuel : Nat) → Progress → List Char → Option Node
  | 0, _, _ => none
  | fuel + 1, p, cs =>
    match skipGap cs with
    | [] => some p.root
    | '#' :: cs =>
      match endLine? ('#' :: cs) with
      | some cs => readLines fuel p cs
      | none => none
    | '[' :: '[' :: cs =>
      match readHeader [']', ']'] cs with
      | some (path, key, cs) =>
        match p.root.openElement path key with
        | some root => readLines fuel ⟨root, path ++ [key]⟩ cs
        | none => none
      | none => none
    | '[' :: cs =>
      match readHeader [']'] cs with
      | some (path, key, cs) =>
        match p.root.openTable path key with
        | some root => readLines fuel ⟨root, path ++ [key]⟩ cs
        | none => none
      | none => none
    | cs =>
      match takeNewline? cs with
      | some cs => readLines fuel p cs
      | none =>
        match readAssignment cs with
        | some (path, key, v, cs) =>
          match p.add path key v with
          | some p => readLines fuel p cs
          | none => none
        | none => none

/-- Drops a byte order mark in front. -/
def skipMark (cs : List Char) : List Char :=
  match cs with
  | c :: rest => if c.toNat = 0xFEFF then rest else cs
  | [] => []

/-- Reads a document as the entries of its root table. -/
def parse? (text : String) : Option (List (String × Toml)) :=
  let cs := skipMark text.toList
  match readLines (cs.length + 1) ⟨.table .header [], []⟩ cs with
  | some root =>
    match root.toToml with
    | table entries => some entries
    | _ => none
  | none => none

end Toml

end BoundSql
