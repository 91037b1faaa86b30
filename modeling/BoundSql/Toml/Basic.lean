import BoundSql.Scalar.Basic

/-!
# TOML documents

Documents as trees. Of a date or a time only that there is one is kept, since no setting and no
part of a schema is given by one.
-/

namespace BoundSql

/-- A value of a TOML document. -/
inductive Toml where
  | string (s : String)
  | int (n : Int64)
  | float (x : Binary64)
  | bool (b : Bool)
  /-- A date, a time or both. -/
  | calendar
  | array (items : List Toml)
  | table (entries : List (String × Toml))

namespace Toml

/-- The value of a key, if the table has it. -/
def find? (entries : List (String × Toml)) (key : String) : Option Toml :=
  (entries.find? fun e => decide (e.1 = key)).map (·.2)

/-- The scalar of a text, a number or a truth value. -/
def scalar? : Toml → Option Scalar
  | string s => some (.ofText s)
  | int n => some (.int n)
  | float x => some (.float x)
  | bool b => some (.bool b)
  | _ => none

end Toml

end BoundSql
