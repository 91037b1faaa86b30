import BoundSql.Schema.Table
import BoundSql.Numeric.Reading

/-!
# Declared types and references

The text of a column type, such as `string(50)`, and of a reference, such as `users.id`. A
reader that fails does so at a place: the rest of the text that its failing step looked at.
-/

namespace BoundSql

/-! ### Failing at a place -/

/-- The number of bytes of a text. -/
def byteLength (cs : List Char) : Nat := cs.foldl (fun n c => n + c.utf8Size) 0

/-- Turns the place where a reader stood into the byte position in the whole text. -/
def atPosition (form : TextForm) (text : String) (result : Except (List Char) α) :
    Except Error α :=
  result.mapError fun rest =>
    .malformed form (byteLength text.toList - byteLength rest) text

/-- Spacing and then the end of the text. -/
def expectEnd (cs : List Char) : Except (List Char) Unit :=
  let rest := skipSpacing cs
  if rest.isEmpty then .ok () else .error rest

/-- One given character in front. -/
def expectChar (mark : Char) : List Char → Except (List Char) (List Char)
  | [] => .error []
  | c :: cs => if c = mark then .ok cs else .error (c :: cs)

/-- The rest after a word in front, whose case does not matter. -/
def dropWord? (word : List Char) (cs : List Char) : Option (List Char) :=
  if (cs.take word.length).map Char.toLower = word then some (cs.drop word.length) else none

/-! ### References -/

namespace Reference

/-- Two identifiers around a point, with spacing at both ends. -/
def scan (cs : List Char) : Except (List Char) Reference := do
  let (table, cs) ← takeIdentifier (skipSpacing cs)
  let cs ← expectChar '.' cs
  let (column, cs) ← takeIdentifier cs
  expectEnd cs
  return ⟨String.ofList table, String.ofList column⟩

/-- Reads `table.column`. -/
def parse (text : String) : Except Error Reference := atPosition .reference text (scan text.toList)

end Reference

/-! ### Column types -/

namespace ColumnType

/-- The words for types; a word stands before its own beginnings. -/
def words : List (String × ColumnType) :=
  [("integer", integer), ("int", integer), ("string", string), ("varchar", string),
   ("text", text), ("float", float), ("boolean", boolean), ("bool", boolean),
   ("datetime", datetime), ("date", date), ("timestamp", timestamp)]

/-- The type that the first fitting word names, and the rest. -/
def takeWord (cs : List Char) : Except (List Char) (ColumnType × List Char) :=
  match words.findSome? fun (word, type) => (dropWord? word.toList cs).map (type, ·) with
  | some found => .ok found
  | none => .error cs

/-- A length between parentheses, below `2 ^ 32`, and the rest. -/
def takeLength? (cs : List Char) : Option (UInt32 × List Char) :=
  match skipSpacing cs with
  | '(' :: cs =>
    let (digits, cs) := takeDigits (skipSpacing cs)
    match skipSpacing cs with
    | ')' :: cs =>
      if digits.isEmpty ∨ Nat.pow 2 32 ≤ digitsValue digits then none
      else some (UInt32.ofNat (digitsValue digits), cs)
    | _ => none
  | _ => none

/-- A word for a type and an optional length, with spacing between and around them. -/
def scan (cs : List Char) : Except (List Char) (ColumnType × Option UInt32) := do
  let (type, cs) ← takeWord (skipSpacing cs)
  match takeLength? cs with
  | some (length, cs) =>
    expectEnd cs
    return (type, some length)
  | none =>
    expectEnd cs
    return (type, none)

/-- Reads a declared type. -/
def parse (text : String) : Except Error (ColumnType × Option UInt32) :=
  atPosition .columnType text (scan text.toList)

end ColumnType

end BoundSql
