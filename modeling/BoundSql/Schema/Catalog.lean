import BoundSql.Schema.Table

/-!
# Catalogs

A catalog is a list of tables with distinct names in which every reference names a column that
some table of the list declares.
-/

namespace BoundSql

structure Catalog where
  tables : List Table

namespace Catalog

/-- The first table of a name. -/
def find? (tables : List Table) (name : String) : Option Table :=
  tables.find? fun t => decide (t.name = name)

/-- The first table whose name stands before it, given the names before the list. -/
def repeatedTable (seen : List String) : List Table → Option SchemaFault
  | [] => none
  | t :: ts =>
    if t.name ∈ seen then some (.duplicateTable t.name)
    else repeatedTable (t.name :: seen) ts

/-- What is wrong with one reference of a table. -/
def referenceFault (tables : List Table) (t : Table) (c : Column) (r : Reference) :
    Option SchemaFault :=
  match find? tables r.table with
  | none => some (.unknownTable t.name c.name r.table)
  | some target =>
    if target.hasColumn r.column then none else some (.unknownColumn t.name c.name r)

/-- The first reference that does not resolve, table by table in declared order. -/
def danglingReference (tables : List Table) : Option SchemaFault :=
  tables.findSome? fun t => t.references.findSome? fun (c, r) => referenceFault tables t c r

/-- The catalog of some tables; repeated names are reported before references. -/
def declare (tables : List Table) : Except Error Catalog :=
  match repeatedTable [] tables with
  | some fault => .error (.schema fault)
  | none =>
    match danglingReference tables with
    | some fault => .error (.schema fault)
    | none => .ok ⟨tables⟩

def get? (c : Catalog) (name : String) : Option Table := find? c.tables name

/-- The table of a name; its absence is an error. -/
def table (c : Catalog) (name : String) : Except Error Table :=
  match c.get? name with
  | some t => .ok t
  | none => .error (.schema (.notFound name))

def names (c : Catalog) : List String := c.tables.map Table.name

end Catalog

end BoundSql
