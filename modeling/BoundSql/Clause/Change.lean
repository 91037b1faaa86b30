import BoundSql.Clause.Condition

/-!
# Statements that change a table

Values of an INSERT or an UPDATE and conditions of an UPDATE or a DELETE, added step by step. A
later value for a column takes the place of an earlier one.
-/

namespace BoundSql

/-- Sets the value of a column in its place, or at the end. -/
def setValue (values : List (String × Scalar)) (column : String) (v : Scalar) :
    List (String × Scalar) :=
  match values with
  | [] => [(column, v)]
  | (c, w) :: rest => if c = column then (c, v) :: rest else (c, w) :: setValue rest column v

/-- Sets several values in turn. -/
def setValues (values : Option (List (String × Scalar))) (pairs : List (String × Scalar)) :
    List (String × Scalar) :=
  pairs.foldl (fun vs p => setValue vs p.1 p.2) (values.getD [])

namespace Insert

def addValues (i : Insert) (pairs : List (String × Scalar)) : Insert :=
  { i with values := some (setValues i.values pairs) }

end Insert

namespace Update

def addValues (u : Update) (pairs : List (String × Scalar)) : Update :=
  { u with values := some (setValues u.values pairs) }

/-- One more condition, which has to hold with those before. -/
def «where» (u : Update) (c : Clause) : Update :=
  { u with condition := some (Clause.conjoin u.condition c) }

end Update

namespace Delete

/-- One more condition, which has to hold with those before. -/
def «where» (d : Delete) (c : Clause) : Delete :=
  { d with condition := some (Clause.conjoin d.condition c) }

end Delete

end BoundSql
