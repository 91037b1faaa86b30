import BoundSql.Quoting
import BoundSql.Toml.Fields
import BoundSql.Toml.Reader

/-!
# Configuration

What a configuration text sets: the dialect, the path of a schema, the level of the log, and a
quote pair that counts instead of the dialect's.
-/

namespace BoundSql

/-- A quote pair; without a closing text the opening one closes. -/
structure QuotePair where
  opening : String
  closing : Option String
deriving DecidableEq

structure Config where
  dialect : Dialect := .generic
  schema : Option String := none
  logLevel : String := "warn"
  quotes : Option QuotePair := none
deriving DecidableEq

/-- Reads a quote pair's settings. -/
def QuotePair.ofToml? (v : Toml) : Option QuotePair := do
  let f ← v.fields?
  return {
    opening := ← f.required 0 "initial" Toml.asString?
    closing := ← f.optional 1 "final" Toml.asString? }

namespace Config

/-- The names of the settings. -/
def settings : List String := ["dialect", "schema", "log_level", "quoting"]

/-- Reads the settings of a root table, in which no other name may stand. -/
def ofEntries? (entries : List (String × Toml)) : Option Config := do
  let f := Toml.Fields.named entries
  guard (entries.all fun e => decide (e.1 ∈ settings))
  let dialect ← f.optional 0 "dialect" fun v => do Dialect.ofName? (← v.asName?)
  let logLevel ← f.optional 2 "log_level" Toml.asString?
  return {
    dialect := dialect.getD .generic
    schema := ← f.optional 1 "schema" Toml.asString?
    logLevel := logLevel.getD "warn"
    quotes := ← f.optional 3 "quoting" QuotePair.ofToml? }

/-- Reads a configuration. -/
def parse (text : String) : Except Error Config :=
  match (Toml.parse? text).bind ofEntries? with
  | some config => .ok config
  | none => .error (.config .unreadable)

/-- The quote pair if there is one, else the quoting of the dialect. -/
def quoting (c : Config) : Quoting :=
  match c.quotes with
  | some pair => .ofPair pair.opening pair.closing
  | none => c.dialect.quoting

/-- The configuration with another dialect, whose quoting then counts. -/
def withDialect (c : Config) (d : Dialect) : Config := { c with dialect := d, quotes := none }

end Config

end BoundSql
