import BoundSql.CommandLine.Switches
import BoundSql.Numeric.Reading
import BoundSql.Quoting

/-!
# Arguments

The commands of the program and their arguments. Switches before the command set the
configuration, the schema, the dialect and the form of the output; those after it belong to the
command. A switch that sets one thing must not be given twice.
-/

namespace BoundSql

/-- The form of the output. -/
inductive OutputFormat where
  | text | json
deriving DecidableEq

/-- What the switches before the command set. -/
structure Settings where
  config : Option String := none
  schema : Option String := none
  dialect : Option Dialect := none
  format : Option OutputFormat := none
  verbose : Bool := false

/-- What the arguments of a command that builds a statement set. -/
structure StatementArguments where
  table : Option String := none
  aliased : Option String := none
  columns : List String := []
  filters : List String := []
  order : List String := []
  values : List String := []
  limit : Option UInt64 := none
  offset : Option UInt64 := none
  distinct : Bool := false

/-- A command with its arguments. -/
inductive Command where
  | tables
  | select (table : String) (arguments : StatementArguments)
  | insert (table : String) (arguments : StatementArguments)
  | update (table : String) (arguments : StatementArguments)
  | delete (table : String) (arguments : StatementArguments)
  /-- Renders the clause in a file, or in the input for `-`. -/
  | compile (file : String)

namespace CommandLine

/-- The meaning of a switch. -/
inductive Meaning where
  | config | schema | dialect | format | verbose | version | help
  | aliased | columns | filter | order | limit | offset | distinct | value
deriving DecidableEq

/-! ### Values -/

/-- Sets what may be set once. -/
def once (current : Option α) (v : α) : Except Stop (Option α) :=
  match current with
  | none => .ok (some v)
  | some _ => .error .refused

/-- Sets what may be set to true once. -/
def onceTrue (current : Bool) : Except Stop Bool := if current then .error .refused else .ok true

/-- The value that a switch with one needs. -/
def given (value : Option String) : Except Stop String :=
  match value with
  | some v => .ok v
  | none => .error .refused

/-- A path, which is not empty. -/
def asPath (value : String) : Except Stop String :=
  if value = "" then .error .refused else .ok value

def asDialect (value : String) : Except Stop Dialect :=
  (Dialect.parse value).mapError fun _ => .refused

def asFormat (value : String) : Except Stop OutputFormat :=
  if value = "text" then .ok .text
  else if value = "json" then .ok .json
  else .error .refused

/-- A count of rows below `2 ^ 64`, with or without a plus sign. -/
def asCount (value : String) : Except Stop UInt64 :=
  let digits :=
    match value.toList with
    | '+' :: cs => cs
    | cs => cs
  if digits.isEmpty ∨ !digits.all Char.isDigit ∨ Nat.pow 2 64 ≤ digitsValue digits then
    .error .refused
  else .ok (UInt64.ofNat (digitsValue digits))

/-- The parts of a text between commas. -/
def splitCommas (cs : List Char) : List (List Char) :=
  match cs with
  | [] => [[]]
  | c :: cs =>
    match c, splitCommas cs with
    | ',', parts => [] :: parts
    | c, part :: parts => (c :: part) :: parts
    | c, [] => [[c]]

/-! ### Switches before the command -/

def helpSwitch : Switch Meaning := ⟨.help, some 'h', some "help", false⟩

def settingSwitches : List (Switch Meaning) :=
  [⟨.config, some 'c', some "config", true⟩,
   ⟨.schema, some 's', some "schema", true⟩,
   ⟨.dialect, some 'd', some "dialect", true⟩,
   ⟨.format, some 'f', some "format", true⟩,
   ⟨.verbose, some 'v', some "verbose", false⟩,
   ⟨.version, some 'V', some "version", false⟩,
   helpSwitch]

def setSetting : Switch.Action Meaning Settings := fun s meaning value => do
  match meaning with
  | .config => return { s with config := ← once s.config (← asPath (← given value)) }
  | .schema => return { s with schema := ← once s.schema (← asPath (← given value)) }
  | .dialect => return { s with dialect := ← once s.dialect (← asDialect (← given value)) }
  | .format => return { s with format := ← once s.format (← asFormat (← given value)) }
  | .verbose => return { s with verbose := ← onceTrue s.verbose }
  | .version => throw .version
  | .help => throw .help
  | _ => throw .refused

/-! ### Arguments of commands -/

def filterSwitch : Switch Meaning := ⟨.filter, some 'f', some "where", true⟩

def valueSwitch : Switch Meaning := ⟨.value, none, some "set", true⟩

def selectSwitches : List (Switch Meaning) :=
  [⟨.aliased, none, some "as", true⟩,
   ⟨.columns, none, some "columns", true⟩,
   filterSwitch,
   ⟨.order, some 'o', some "order", true⟩,
   ⟨.limit, none, some "limit", true⟩,
   ⟨.offset, none, some "offset", true⟩,
   ⟨.distinct, none, some "distinct", false⟩,
   helpSwitch]

def setArgument : Switch.Action Meaning StatementArguments := fun a meaning value => do
  match meaning with
  | .aliased => return { a with aliased := ← once a.aliased (← given value) }
  | .columns =>
    let names := (splitCommas (← given value).toList).map String.ofList
    return { a with columns := a.columns ++ names }
  | .filter => return { a with filters := a.filters ++ [← given value] }
  | .order => return { a with order := a.order ++ [← given value] }
  | .limit => return { a with limit := ← once a.limit (← asCount (← given value)) }
  | .offset => return { a with offset := ← once a.offset (← asCount (← given value)) }
  | .distinct => return { a with distinct := ← onceTrue a.distinct }
  | .value => return { a with values := a.values ++ [← given value] }
  | .help => throw .help
  | _ => throw .refused

/-- The one plain word of a command that builds a statement names the table. -/
def setTable (a : StatementArguments) (word : String) : Except Stop StatementArguments := do
  return { a with table := ← once a.table word }

/-- The arguments of a command that builds a statement. -/
def statementArguments (switches : List (Switch Meaning)) (words : List String) :
    Except Stop (String × StatementArguments) := do
  let a ← Switch.readAll switches setArgument setTable (words.length + 1) words {}
  return (← given a.table, a)

/-- A command that takes at most help and plain words given to `plain`. -/
def plainArguments (plain : Option String → String → Except Stop (Option String))
    (words : List String) : Except Stop (Option String) :=
  Switch.readAll [helpSwitch] (fun _ _ _ => .error .help) plain (words.length + 1) words none

/-- The names of the commands. -/
def commandNames : List String :=
  ["tables", "select", "insert", "update", "delete", "compile", "help"]

/-- Help on the program, or on the one command that is named. -/
def helpOn (words : List String) : Stop :=
  match words with
  | [] => .help
  | [name] => if name ∈ commandNames then .help else .refused
  | _ => .refused

/-- A command of a name with the words after it. -/
def readCommand (name : String) (words : List String) : Except Stop Command :=
  match name with
  | "tables" => (plainArguments (fun _ _ => .error .refused) words).map fun _ => .tables
  | "select" => (statementArguments selectSwitches words).map fun (t, a) => .select t a
  | "insert" =>
    (statementArguments [valueSwitch, helpSwitch] words).map fun (t, a) => .insert t a
  | "update" =>
    (statementArguments [valueSwitch, filterSwitch, helpSwitch] words).map
      fun (t, a) => .update t a
  | "delete" =>
    (statementArguments [filterSwitch, helpSwitch] words).map fun (t, a) => .delete t a
  | "compile" => do
    let file ← plainArguments (fun file word => do once file (← asPath word)) words
    return .compile (← given file)
  | "help" => .error (helpOn words)
  | _ => .error .refused

/-! ### The whole line -/

/-- A setting from the environment, where the command line has none. -/
def orEnvironment (current : Option String) (value : Option String) :
    Except Stop (Option String) :=
  match current, value with
  | some v, _ => .ok (some v)
  | none, some v => (asPath v).map some
  | none, none => .ok none

/-- Reads the words of a command line; `environment` gives the two paths that may stand there. -/
def read (environment : String → Option String) (words : List String) :
    Except Stop (Settings × Command) := do
  match ← Switch.readUntilPlain settingSwitches setSetting words {} with
  | (s, name :: rest) =>
    let command ← readCommand name rest
    let config ← orEnvironment s.config (environment "CLAUSEKIT_CONFIG")
    let schema ← orEnvironment s.schema (environment "CLAUSEKIT_SCHEMA")
    return ({ s with config := config, schema := schema }, command)
  | (_, []) => throw .refused

end CommandLine

end BoundSql
