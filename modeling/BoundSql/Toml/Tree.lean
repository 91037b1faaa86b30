import BoundSql.Toml.Basic

/-!
# Building TOML tables

While a document is read its tables are open: a table that only a longer key has named is
implicit, and one that a key with points has made is dotted. A header may open an implicit table
that is not dotted; a key with points may go on only into implicit tables. `Node.toToml` closes
the tables.
-/

namespace BoundSql

namespace Toml

/-- How an open table came to be. -/
structure Origin where
  implicit : Bool
  dotted : Bool

/-- A table made by a header. -/
def Origin.header : Origin := ⟨false, false⟩

/-- A part of a document that is being read. -/
inductive Node where
  | value (v : Toml)
  | table (origin : Origin) (entries : List (String × Node))
  /-- Tables under one header in double brackets. -/
  | tables (elements : List Node)

namespace Node

def find? (entries : List (String × Node)) (key : String) : Option Node :=
  (entries.find? fun e => decide (e.1 = key)).map (·.2)

/-- Sets the value of a key in its place, or at the end. -/
def setEntry (entries : List (String × Node)) (key : String) (n : Node) : List (String × Node) :=
  match entries with
  | [] => [(key, n)]
  | (k, m) :: rest => if k = key then (k, n) :: rest else (k, m) :: setEntry rest key n

/-- A change of an open table. -/
abbrev Change := Origin → List (String × Node) → Option Node

/-- Applies a change to a table, or to the last one of several. -/
def changeHere (f : Change) : Node → Option Node
  | table origin entries => f origin entries
  | tables elements =>
    match elements.getLast? with
    | some (table origin entries) =>
      (f origin entries).map fun n => tables (elements.dropLast ++ [n])
    | _ => none
  | value _ => none

/-- A dotted key must not go on into a table that is not implicit. -/
def blocks (dotted : Bool) : Node → Bool
  | table origin _ => dotted && !origin.implicit
  | _ => false

/-- Applies a change to the table at a path, making the tables on the way that are missing. -/
def changeAt (dotted : Bool) (f : Change) : List String → Node → Option Node
  | [], n => changeHere f n
  | key :: path, n =>
    changeHere
      (fun origin entries =>
        let child := (find? entries key).getD (table ⟨true, dotted⟩ [])
        if blocks dotted child then none
        else
          (changeAt dotted f path child).map fun child =>
            table origin (setEntry entries key child))
      n

/-- Adds a value under a key with `path` before it, relative to an open table. -/
def addValue (path : List String) (key : String) (v : Toml) : Node → Option Node :=
  changeAt true
    (fun origin entries =>
      if origin.dotted == path.isEmpty then none
      else if (find? entries key).isSome then none
      else some (table origin (setEntry entries key (value v))))
    path

/-- Opens the table of a header. -/
def openTable (path : List String) (key : String) : Node → Option Node :=
  changeAt false
    (fun origin entries =>
      match find? entries key with
      | none => some (table origin (setEntry entries key (table .header [])))
      | some (table child inner) =>
        if child.implicit && !child.dotted then
          some (table origin (setEntry entries key (table .header inner)))
        else none
      | some _ => none)
    path

/-- Opens one more table under a header in double brackets. -/
def openElement (path : List String) (key : String) : Node → Option Node :=
  changeAt false
    (fun origin entries =>
      match find? entries key with
      | none => some (table origin (setEntry entries key (tables [table .header []])))
      | some (tables elements) =>
        some (table origin (setEntry entries key (tables (elements ++ [table .header []]))))
      | some _ => none)
    path

mutual
/-- The closed value of a node. -/
def toToml : Node → Toml
  | value v => v
  | table _ entries => .table (entriesToToml entries)
  | tables elements => .array (elementsToToml elements)

def entriesToToml : List (String × Node) → List (String × Toml)
  | [] => []
  | (key, n) :: rest => (key, n.toToml) :: entriesToToml rest

def elementsToToml : List Node → List Toml
  | [] => []
  | n :: rest => n.toToml :: elementsToToml rest
end

end Node

end Toml

end BoundSql
