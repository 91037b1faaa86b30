import BoundSql.Clause.Equality
import BoundSql.Clause.Join

/-!
# Selects

Building a SELECT step by step, and the list it selects from. Selecting a table or an alias
selects all its columns; selecting a join selects the columns of all its sources and selects
from the join.
-/

namespace BoundSql

/-! ### Owners -/

/-- What a column belongs to: a source, or a name of which nothing else is known. -/
inductive Owner where
  | source (s : Source)
  | named (name : String)

namespace Owner

def toClause : Owner → Clause
  | source s => s.toClause
  | named name => .named name

/-- The owner of a column, if it is qualified. -/
def ofColumn? (c : ColumnRef) : Option Owner :=
  match c.source, c.qualifier with
  | some s, _ => some (source s)
  | none, some q => some (named q)
  | none, none => none

end Owner

namespace Clause

mutual
/-- The columns that a clause mentions outside statements and joins, from left to right. -/
def columnRefs : Clause → List ColumnRef
  | column c => [c]
  | binary l _ r => columnRefs l ++ columnRefs r
  | unary _ c _ => columnRefs c
  | group c => columnRefs c
  | junction _ cs => columnRefsOfAll cs
  | sequence cs _ => columnRefsOfAll cs
  | _ => []

def columnRefsOfAll : List Clause → List ColumnRef
  | [] => []
  | c :: cs => columnRefs c ++ columnRefsOfAll cs
end

/-- Adds a clause to the end of a list unless the same one is in it. -/
def addNew (cs : List Clause) (c : Clause) : List Clause :=
  if cs.any (fun d => d.same c) then cs else cs ++ [c]

/-- Keeps an owner unless the same one is already kept. -/
def addOwner (owners : List Owner) (o : Owner) : List Owner :=
  if owners.any (fun p => p.toClause.same o.toClause) then owners else owners ++ [o]

/-- The distinct owners of the columns that a select list mentions, in order of first mention. -/
def ownersOf (columns : List Clause) : List Owner :=
  ((columnRefsOfAll columns).filterMap Owner.ofColumn?).foldl addOwner []

end Clause

/-! ### Building -/

namespace Select

def addFrom (s : Select) (c : Clause) : Select := { s with froms := Clause.addNew s.froms c }

def addColumns (s : Select) (cs : List ColumnRef) : Select :=
  { s with columns := s.columns ++ cs.map .column }

/-- One more selected item. -/
def column (s : Select) : Clause → Select
  | .table t => s.addColumns (Source.columns (.table t))
  | .aliased a => s.addColumns (Source.columns (.aliased a))
  | .join left right on outer =>
    let j := Clause.join left right on outer
    (s.addColumns (j.sources.flatMap Source.columns)).addFrom j
  | .named name => s.addFrom (.named name)
  | c => { s with columns := s.columns ++ [c] }

/-- The SELECT of some items. -/
def ofItems (items : List Clause) : Select := items.foldl column {}

/-- One more clause to select from, whatever is there already. -/
def «from» (s : Select) (c : Clause) : Select := { s with froms := s.froms ++ [c] }

/-- One more condition, which has to hold with those before. -/
def «where» (s : Select) (c : Clause) : Select :=
  { s with condition := some (Clause.conjoin s.condition c) }

/-- One more term to order by. -/
def orderBy (s : Select) (c : Clause) : Select :=
  match s.order with
  | some o => { s with order := some { o with terms := o.terms ++ [c] } }
  | none => { s with order := some ⟨[c], ","⟩ }

/-- What the SELECT selects from: its own list, or the owners of its columns. -/
def effectiveFroms (s : Select) : List Clause :=
  if s.froms.isEmpty then (Clause.ownersOf s.columns).map Owner.toClause else s.froms

end Select

/-- All columns of a source. -/
def Source.select (s : Source) : Select := .ofItems [s.toClause]

/-- Some declared columns of a source. -/
def Source.selectColumns (s : Source) (names : List String) : Except Error Select := do
  return .ofItems (← names.mapM fun n => do return .column (← s.column n))

/-- All columns of all sources of a join. -/
def Join.select (j : Join) : Select :=
  { columns := (j.sources.flatMap Source.columns).map .column, froms := [j.toClause] }

end BoundSql
