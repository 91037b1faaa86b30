import BoundSql.Schema.Catalog
import BoundSql.Schema.Declaration
import BoundSql.Toml.Fields
import BoundSql.Toml.Reader

/-!
# Catalogs from TOML

A schema lists tables, each with a name and columns. A column has a name, a declared type and,
if need be, a length, truth values, a reference and a default. The form of the whole text is
checked first, then the columns and the table of each entry in turn, then the catalog.
-/

namespace BoundSql

/-- A column as a schema writes it. -/
structure ColumnEntry where
  name : String
  type : String
  length : Option UInt32
  nullable : Option Bool
  primaryKey : Bool
  autoIncrement : Bool
  references : Option String
  default : Option Scalar

/-- A table as a schema writes it. -/
structure TableEntry where
  name : String
  columns : List ColumnEntry

namespace ColumnEntry

/-- Reads a column's settings. -/
def ofToml? (v : Toml) : Option ColumnEntry := do
  let f ← v.fields?
  return {
    name := ← f.required 0 "name" Toml.asString?
    type := ← f.required 1 "type" Toml.asString?
    length := ← f.optional 2 "length" Toml.asLength?
    nullable := ← f.optional 3 "nullable" Toml.asBool?
    primaryKey := (← f.optional 4 "primary_key" Toml.asBool?).getD false
    autoIncrement := (← f.optional 5 "auto_increment" Toml.asBool?).getD false
    references := ← f.optional 6 "references" Toml.asString?
    default := ← f.optional 7 "default" Toml.scalar? }

/--
The column declared. A length of its own counts before that of the type, and a column may be null
unless it says otherwise or is a primary key.
-/
def toColumn (e : ColumnEntry) : Except Error Column := do
  let (type, declared) ← ColumnType.parse e.type
  let reference ← match e.references with
    | some text => (Reference.parse text).map some
    | none => .ok none
  return {
    name := e.name
    type := type
    options := {
      length := e.length.or declared
      nullable := e.nullable.getD (!e.primaryKey)
      primaryKey := e.primaryKey
      autoIncrement := e.autoIncrement
      reference := reference
      default := e.default } }

end ColumnEntry

namespace TableEntry

/-- Reads a table's settings. -/
def ofToml? (v : Toml) : Option TableEntry := do
  let f ← v.fields?
  let columns ← f.optional 1 "columns" fun v => do (← v.asArray?).mapM ColumnEntry.ofToml?
  return { name := ← f.required 0 "name" Toml.asString?, columns := columns.getD [] }

/-- The table declared. -/
def toTable (e : TableEntry) : Except Error Table := do
  Table.declare e.name (← e.columns.mapM ColumnEntry.toColumn)

end TableEntry

namespace Catalog

/-- Reads the tables of a schema. -/
def entries? (text : String) : Option (List TableEntry) := do
  let root ← Toml.parse? text
  match Toml.find? root "tables" with
  | some v => (← v.asArray?).mapM TableEntry.ofToml?
  | none => some []

/-- Reads a catalog. -/
def parse (text : String) : Except Error Catalog :=
  match entries? text with
  | some entries => do Catalog.declare (← entries.mapM TableEntry.toTable)
  | none => .error (.schema .unreadable)

end Catalog

end BoundSql
