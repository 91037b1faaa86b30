import BoundSql.Clause.Condition

/-!
# Joins

`Join.infer` joins a source to what stands on the left by the references between them: each
reference becomes one equality of the referenced column and the referencing one.
-/

namespace BoundSql

namespace Clause

/-- The tables and aliases that take part in a clause of joins, from left to right. -/
def sources : Clause → List Source
  | table t => [.table t]
  | aliased a => [.aliased a]
  | join left right _ _ => left.sources ++ right.sources
  | _ => []

end Clause

namespace Source

/-- A reference from one source to another: the sources and the columns at its two ends. -/
structure Link where
  referenced : Source
  referencedColumn : String
  referencing : Source
  referencingColumn : String

/-- The references of `source` that name the table of `target`. -/
def linksTo (source target : Source) : List Link :=
  (source.base.references.filter fun (_, r) => decide (r.table = target.base.name)).map
    fun (c, r) => ⟨target, r.column, source, c.name⟩

/-- The equality of the two columns of a link. -/
def Link.condition (l : Link) : Except Error Clause := do
  let referenced ← l.referenced.column l.referencedColumn
  let referencing ← l.referencing.column l.referencingColumn
  return referenced.compare .eq (.clause (.column referencing))

end Source

namespace Join

/-- Every link between some sources and the one on the right, the ones from the right first. -/
def links (lefts : List Source) (right : Source) : List Source.Link :=
  lefts.flatMap fun l => right.linksTo l ++ l.linksTo right

/-- One condition alone, or all of several. -/
def onClause : List Clause → Clause
  | [c] => c
  | cs => .allOf cs

/-- Joins a source by the references that link it to the left side. -/
def infer (left : Clause) (right : Source) (outer : Bool) : Except Error Join := do
  let conditions ← (links left.sources right).mapM Source.Link.condition
  if conditions.isEmpty then
    throw (.unrelated (left.sources.map Source.name) right.name)
  return ⟨left, right.toClause, onClause conditions, outer⟩

/-- The tables and aliases that take part, from left to right. -/
def sources (j : Join) : List Source := j.toClause.sources

end Join

end BoundSql
