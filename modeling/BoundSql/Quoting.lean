import BoundSql.Schema.Table
import BoundSql.Text.Case

/-!
# Quoting of identifiers

A quoting is a pair of texts that stand around an identifier. The closing text inside a quoted
identifier is written twice. Dialects differ in nothing but their quoting.
-/

namespace BoundSql

/-- The texts before and after a quoted identifier; two empty ones leave it unquoted. -/
structure Quoting where
  opening : String
  closing : String
deriving DecidableEq

/-- How the identifiers of a database are quoted. -/
inductive Dialect where
  | generic | sqlite | postgres | mysql
deriving DecidableEq

namespace Quoting

/-- No quoting. -/
def plain : Quoting := ⟨"", ""⟩

/-- A quoting whose closing text is the opening one unless given. -/
def ofPair (opening : String) (closing : Option String) : Quoting :=
  ⟨opening, closing.getD opening⟩

/--
Writes every occurrence of `mark` twice, looking from the left at occurrences that do not
overlap. `skip` characters still belong to the last occurrence found.
-/
def doubleMark (mark : List Char) : (skip : Nat) → List Char → List Char
  | _, [] => []
  | skip + 1, c :: cs => c :: doubleMark mark skip cs
  | 0, c :: cs =>
    if mark ≠ [] ∧ mark.isPrefixOf (c :: cs) then
      mark ++ c :: doubleMark mark (mark.length - 1) cs
    else c :: doubleMark mark 0 cs

/-- An identifier between the quotes, with the closing text inside it doubled. -/
def quoteText (q : Quoting) (name : List Char) : List Char :=
  q.opening.toList ++ doubleMark q.closing.toList 0 name ++ q.closing.toList

def quote (q : Quoting) (name : String) : String := String.ofList (q.quoteText name.toList)

/-- `owner.column`, or the column alone. -/
def quoteColumn (q : Quoting) (c : ColumnRef) : String :=
  match c.ownerName with
  | some owner => q.quote owner ++ "." ++ q.quote c.name
  | none => q.quote c.name

end Quoting

namespace Dialect

/-- The name in lower case. -/
def name : Dialect → String
  | generic => "generic"
  | sqlite => "sqlite"
  | postgres => "postgres"
  | mysql => "mysql"

def all : List Dialect := [generic, sqlite, postgres, mysql]

/-- The dialect of a lower-case name. -/
def ofName? (s : String) : Option Dialect := all.find? fun d => decide (d.name = s)

theorem ofName?_name (d : Dialect) : ofName? d.name = some d := by
  cases d <;> decide

/-- The dialect of a name in any case, `postgresql` being another name of `postgres`. -/
def parse (text : String) : Except Error Dialect :=
  let name := lowerCase text
  if name = "postgresql" then .ok postgres
  else
    match ofName? name with
    | some d => .ok d
    | none => .error (.config (.unknownDialect name))

/-- The quoting of a dialect. -/
def quoting : Dialect → Quoting
  | generic => .plain
  | sqlite => .ofPair "\"" none
  | postgres => .ofPair "\"" none
  | mysql => .ofPair "\x60" none

end Dialect

end BoundSql
