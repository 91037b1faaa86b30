import BoundSql.Schema.Column
import BoundSql.Operator

/-!
# Errors

Every way in which building, loading or rendering a statement can fail, and the one function
that words it.
-/

namespace BoundSql

/-- What a short text was to be read as. -/
inductive TextForm where
  | columnType | reference | filter | assignment | orderTerm
deriving DecidableEq

def TextForm.name : TextForm → String
  | columnType => "column type"
  | reference => "foreign key reference"
  | filter => "filter"
  | assignment => "assignment"
  | orderTerm => "order term"

/-- A list that must not be empty. -/
inductive EmptyPart where
  | andList | orList | valueList
deriving DecidableEq

def EmptyPart.name : EmptyPart → String
  | andList => "AND list"
  | orList => "OR list"
  | valueList => "value list"

/-- Why a set of tables is no catalog, or a catalog has no answer. -/
inductive SchemaFault where
  /-- The text is not of the form of a schema. -/
  | unreadable
  | duplicateTable (table : String)
  | unknownTable (table column target : String)
  | unknownColumn (table column : String) (target : Reference)
  | notFound (table : String)
deriving DecidableEq

def SchemaFault.message : SchemaFault → String
  | unreadable => "Failed to parse schema"
  | duplicateTable table => s!"table '{table}' is defined twice"
  | unknownTable table column target =>
    s!"{table}.{column} references unknown table '{target}'"
  | unknownColumn table column target =>
    s!"{table}.{column} references unknown column {target.display}"
  | notFound table => s!"Table '{table}' not found in schema"

/-- Why a configuration is refused. -/
inductive ConfigFault where
  /-- The text is not of the form of a configuration. -/
  | unreadable
  | unknownDialect (name : String)
deriving DecidableEq

def ConfigFault.message : ConfigFault → String
  | unreadable => "Failed to parse config"
  | unknownDialect name => s!"unknown dialect '{name}'"

/-- Why a name or a column list is refused. -/
inductive NameFault where
  | invalidIdentifier (name : String)
  | duplicateColumn (table column : String)
deriving DecidableEq

def NameFault.message : NameFault → String
  | invalidIdentifier name => s!"Invalid identifier: '{name}'"
  | duplicateColumn table column => s!"Duplicate column '{column}' in {table} table"

/-- Why a JSON document is not the form of a clause or scalar. -/
inductive FormFault where
  | shape
  | badName (fault : NameFault)
deriving DecidableEq

/-- Everything that can go wrong. -/
inductive Error where
  | unknownKind (kind : String)
  | unknownColumns (table : String) (columns : List String)
  | uninvertible (operator : Operator)
  | badName (fault : NameFault)
  | duplicateParameter (name : String)
  | empty (part : EmptyPart)
  | unrelated (left : List String) (right : String)
  /-- A short text is malformed from a byte position on. -/
  | malformed (form : TextForm) (position : Nat) (text : String)
  | schema (fault : SchemaFault)
  | config (fault : ConfigFault)
  /-- The text is not JSON. -/
  | notJson
  /-- The text is JSON of another form than the expected one. -/
  | misshapen (fault : FormFault)
  | missingFile
deriving DecidableEq, Inhabited

/-- The wording of an error. -/
def Error.message : Error → String
  | unknownKind kind => s!"Unknown clause element type: '{kind}'"
  | unknownColumns table columns =>
    let names := ", ".intercalate columns
    s!"Unknown column(s) {names} in {table} table"
  | uninvertible operator => s!"Operator '{operator.symbol}' cannot be inverted"
  | badName fault => fault.message
  | duplicateParameter name => s!"Parameter ':{name}' is bound more than once"
  | empty part => s!"Empty {part.name} cannot be rendered"
  | unrelated left right =>
    let names := ", ".intercalate left
    s!"No foreign key relationship between {names} and {right}"
  | malformed form position text =>
    s!"Parse error at position {position}: invalid {form.name}: '{text}'"
  | schema fault => s!"Schema error: {fault.message}"
  | config fault => s!"Configuration error: {fault.message}"
  | notJson => "JSON error"
  | misshapen .shape => "JSON error"
  | misshapen (.badName fault) => s!"JSON error: {fault.message}"
  | missingFile => "IO error: No such file or directory (os error 2)"

end BoundSql
