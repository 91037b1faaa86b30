import BoundSql.Json.Printer
import BoundSql.Template

/-!
# Statements

A statement is SQL text with the parameters that its placeholders stand for.
-/

namespace BoundSql

/-- SQL text and the values of its placeholders. -/
structure Statement where
  sql : String
  params : Params

namespace Clause

/-- The statement that a clause renders to under a quoting. -/
def compile (q : Quoting) (c : Clause) : Except Error Statement :=
  (Template.fill {} (c.template q)).map fun (texts, b) => ⟨String.join texts, b.params⟩

end Clause

/-- Parameters as a JSON object, in their order. -/
def Params.toJson (p : Params) : Json := .object (p.entries.map fun (k, v) => (k, .ofScalar v))

/-- A statement as a JSON object. -/
def Statement.toJson (s : Statement) : Json :=
  .object [("sql", .string s.sql), ("params", s.params.toJson)]

end BoundSql
