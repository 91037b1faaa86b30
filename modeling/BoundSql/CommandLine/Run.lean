import BoundSql.Clause.Change
import BoundSql.Clause.Decode
import BoundSql.CommandLine.Path
import BoundSql.CommandLine.Report
import BoundSql.Config
import BoundSql.Filter
import BoundSql.Schema.Document

/-!
# Running a command

A run reads the configuration, then what its command needs, and ends with an exit code and two
texts. It sees files, the input and the environment through a `Host`, so that it runs in any
monad.
-/

namespace BoundSql

/-- What a run sees of its surroundings. -/
structure Host (m : Type → Type) where
  /-- The content of a file, if it exists. -/
  fileText? : String → m (Option String)
  readInput : m String
  environment : String → Option String

/-- How a run ends: the exit code, the output, and the lines for the error output. -/
structure Outcome where
  exit : UInt32
  output : String := ""
  notices : List String := []

namespace CommandLine

/-! ### Failures -/

/-- Why a run fails. -/
inductive Failure where
  | config (e : Error)
  | schema (path : String) (e : Error)
  /-- The file to compile does not exist. -/
  | missing (path : String)
  | noSchema
  | statement (e : Error)

/-- What caused an error, if its message only stands around that. -/
def causeText : Error → String
  | .missingFile => ": No such file or directory (os error 2)"
  | .misshapen (.badName fault) => ": " ++ fault.message
  | _ => ""

/-- An error and its cause. -/
def errorText (e : Error) : String := e.message ++ causeText e

def Failure.message : Failure → String
  | config e => "loading configuration: " ++ errorText e
  | schema path e => "loading schema " ++ path ++ ": " ++ errorText e
  | missing path => "reading " ++ path ++ ": No such file or directory (os error 2)"
  | noSchema => "no schema file; pass --schema or set \x60schema\x60 in the config file"
  | statement e => errorText e

/-! ### Configuration and schema -/

/-- Where a configuration is looked for when none is named. -/
def defaultConfigPath (environment : String → Option String) : Option String :=
  let directory :=
    match environment "XDG_CONFIG_HOME" with
    | some d => if Path.isAbsolute d then some d else none
    | none => none
  let home :=
    match environment "HOME" with
    | some h => if h = "" then none else some (Path.join h ".config")
    | none => none
  (directory.or home).map fun d => Path.join d "clausekit/config.toml"

/-- The configuration of a file's text; a relative schema path is relative to the file. -/
def configOfFile (path content : String) : Except Error Config := do
  let c ← Config.parse content
  match c.schema, Path.parent? path with
  | some schema, some directory => return { c with schema := some (Path.join directory schema) }
  | _, _ => return c

variable {m : Type → Type} [Monad m]

/-- The configuration at a path, or at the default one if there is any. -/
def loadConfig (h : Host m) (path : Option String) : m (Except Failure Config) := do
  match path with
  | some path =>
    match ← h.fileText? path with
    | some content => return (configOfFile path content).mapError .config
    | none => return .error (.config .missingFile)
  | none =>
    match defaultConfigPath h.environment with
    | none => return .ok {}
    | some path =>
      match ← h.fileText? path with
      | some content => return (configOfFile path content).mapError .config
      | none => return .ok {}

/-- The catalog at a path. -/
def loadCatalog (h : Host m) (path : Option String) : m (Except Failure Catalog) := do
  match path with
  | none => return .error .noSchema
  | some path =>
    match ← h.fileText? path with
    | some content => return (Catalog.parse content).mapError (.schema path)
    | none => return .error (.schema path .missingFile)

/-! ### Statements -/

/-- The source of a command: the table, under the alias if there is one. -/
def sourceOf (t : Table) (a : StatementArguments) : Except Error Source :=
  match a.aliased with
  | some name => (Alias.declare t name).map .aliased
  | none => .ok (.table t)

/-- The condition of a filter's text. -/
def condition (s : Source) (text : String) : Except Error Clause := do
  (← Filter.parse text).toClause s

/-- The term of an order term's text. -/
def orderTerm (s : Source) (text : String) : Except Error Clause := do
  (← OrderTerm.parse text).toClause s

/-- The column and value of an assignment's text. -/
def assignment (text : String) : Except Error (String × Scalar) := do
  let a ← ValueAssignment.parse text
  return (a.column, a.value)

def buildSelect (t : Table) (a : StatementArguments) : Except Error Select := do
  let source ← sourceOf t a
  let select ← if a.columns.isEmpty then .ok source.select else source.selectColumns a.columns
  let select ← a.filters.foldlM (fun s text => do return s.where (← condition source text)) select
  let select ← a.order.foldlM (fun s text => do return s.orderBy (← orderTerm source text)) select
  return { select with limit := a.limit, offset := a.offset, distinct := a.distinct }

def buildInsert (t : Table) (a : StatementArguments) : Except Error Insert := do
  if a.values.isEmpty then return { table := t }
  else return Insert.addValues { table := t } (← a.values.mapM assignment)

def buildUpdate (t : Table) (a : StatementArguments) : Except Error Update := do
  let update : Update ←
    if a.values.isEmpty then pure { table := t }
    else do pure (Update.addValues { table := t } (← a.values.mapM assignment))
  a.filters.foldlM (fun u text => do return u.where (← condition (.table t) text)) update

def buildDelete (t : Table) (a : StatementArguments) : Except Error Delete :=
  a.filters.foldlM (fun d text => do return d.where (← condition (.table t) text)) { table := t }

/-- The clause that a command builds on a catalog; other commands build none. -/
def buildClause (c : Catalog) : Command → Except Error (Option Clause)
  | .select name a => do return some (← buildSelect (← c.table name) a).toClause
  | .insert name a => do return some (← buildInsert (← c.table name) a).toClause
  | .update name a => do return some (← buildUpdate (← c.table name) a).toClause
  | .delete name a => do return some (← buildDelete (← c.table name) a).toClause
  | _ => .ok none

/-- Loads the clause of a file, or of the input for `-`. -/
def loadClause (h : Host m) (file : String) : m (Except Failure Clause) := do
  if file = "-" then return (Clause.load (← h.readInput)).mapError .statement
  else
    match ← h.fileText? file with
    | some content => return (Clause.load content).mapError .statement
    | none => return .error (.missing file)

/-! ### Runs -/

/-- A run that fails after some notices. -/
def failed (notices : List String) (f : Failure) : Outcome :=
  { exit := 1, notices := notices ++ ["Error: " ++ f.message] }

/-- Renders a clause and reports the statement. -/
def report (s : Settings) (q : Quoting) (c : Clause) : Outcome :=
  let notices := if s.verbose then ["Element: " ++ c.kind] else []
  match c.compile q with
  | .ok statement =>
    { exit := 0, output := Report.statement (s.format.getD .text) statement, notices := notices }
  | .error e => failed notices (.statement e)

/-- Runs a command that needs the catalog. -/
def runOnCatalog (s : Settings) (q : Quoting) (c : Catalog) (command : Command) : Outcome :=
  match buildClause c command with
  | .ok (some clause) => report s q clause
  | .ok none => { exit := 0, output := Report.catalog c }
  | .error e => failed [] (.statement e)

/-- Runs a command under a configuration. -/
def runCommand (h : Host m) (s : Settings) (config : Config) (command : Command) :
    m Outcome := do
  let config :=
    match s.dialect with
    | some d => config.withDialect d
    | none => config
  match command with
  | .compile file =>
    match ← loadClause h file with
    | .ok c => return report s config.quoting c
    | .error f => return failed [] f
  | command =>
    match ← loadCatalog h (s.schema.or config.schema) with
    | .ok catalog => return runOnCatalog s config.quoting catalog command
    | .error f => return failed [] f

/-- The name and version of the program. -/
def versionText : String := "clausekit 0.1.0"

def helpText : String :=
  "Compile SQL clause trees to parameterized SQL\n\n"
    ++ "Usage: clausekit [OPTIONS] <tables|select|insert|update|delete|compile>"

/-- Runs a whole command line. -/
def run (h : Host m) (words : List String) : m Outcome := do
  match read h.environment words with
  | .error .refused => return { exit := 2 }
  | .error .version => return { exit := 0, output := Report.line versionText }
  | .error .help => return { exit := 0, output := Report.line helpText }
  | .ok (s, command) =>
    match ← loadConfig h s.config with
    | .ok config => runCommand h s config command
    | .error f => return failed [] f

end CommandLine

end BoundSql
