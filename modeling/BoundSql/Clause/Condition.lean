import BoundSql.Clause.Basic

/-!
# Conditions

Comparisons of a column with a value or another clause, membership, orderings, conjunctions and
negation. A comparison for equality with null is written with `IS`, one for inequality with
`IS NOT`. Conjunctions put a nested one in parentheses.
-/

namespace BoundSql

/-- What a column is compared with. -/
inductive Operand where
  | value (v : Scalar)
  | clause (c : Clause)

namespace ColumnRef

/-- An operand beside a column: null as itself, any other value bound under the column's name. -/
def operandClause (c : ColumnRef) : Operand → Clause
  | .value .null => .null
  | .value v => .bind c.name v
  | .clause d => d

/-- The operator that compares with an operand. -/
def comparing : Operator → Operand → Operator
  | .eq, .value .null => .is
  | .ne, .value .null => .isNot
  | o, _ => o

/-- `column operator operand` -/
def compare (c : ColumnRef) (o : Operator) (x : Operand) : Clause :=
  .binary (.column c) (comparing o x) (c.operandClause x)

def isNull (c : ColumnRef) : Clause := c.compare .is (.value .null)

def isNotNull (c : ColumnRef) : Clause := c.compare .isNot (.value .null)

/-- Matches texts that begin with `s`, in which `%` and `_` keep their meaning. -/
def startsWith (c : ColumnRef) (s : String) : Clause :=
  c.compare .like (.value (.text (s ++ "%")))

/-- Matches texts that end with `s`, in which `%` and `_` keep their meaning. -/
def endsWith (c : ColumnRef) (s : String) : Clause :=
  c.compare .like (.value (.text ("%" ++ s)))

/-- Matches texts that hold `s`, in which `%` and `_` keep their meaning. -/
def contains (c : ColumnRef) (s : String) : Clause :=
  c.compare .like (.value (.text ("%" ++ s ++ "%")))

/--
Membership in a list of operands. No row is in the empty list, which is the condition that null
is not null.
-/
def within (c : ColumnRef) (xs : List Operand) : Clause :=
  match xs with
  | [] => .binary .null .isNot .null
  | _ => .binary (.column c) .within (.group (.sequence (xs.map c.operandClause) ","))

def ascending (c : ColumnRef) : Clause := .unary none (.column c) (some .asc)

def descending (c : ColumnRef) : Clause := .unary none (.column c) (some .desc)

end ColumnRef

namespace Clause

/-! ### Conjunctions -/

/-- A member as a conjunction holds it: another conjunction goes into parentheses. -/
def asMember : Clause → Clause
  | junction o cs => group (junction o cs)
  | c => c

/-- Members joined by an operator. -/
def joinedBy (o : Operator) (cs : List Clause) : Clause := junction o (cs.map asMember)

/-- All of the conditions. -/
def allOf (cs : List Clause) : Clause := joinedBy .and cs

/-- One of the conditions. -/
def anyOf (cs : List Clause) : Clause := joinedBy .or cs

/-- One more member at the end of a conjunction or a sequence. -/
def push? : Clause → Clause → Option Clause
  | junction o cs, d => some (junction o (cs ++ [d.asMember]))
  | sequence cs separator, d => some (sequence (cs ++ [d]) separator)
  | _, _ => none

/-- One more condition: it joins a conjunction by AND, and any other condition in a new one. -/
def conjoin : Option Clause → Clause → Clause
  | none, d => d
  | some (junction .and cs), d => junction .and (cs ++ [d.asMember])
  | some c, d => allOf [c, d]

/-! ### Negation -/

/-- NOT before the clause in parentheses. -/
def negated (c : Clause) : Clause := unary (some .not) (group c) none

/-- What a NOT stands before, without its parentheses. -/
def underNot : Clause → Clause
  | group c => c
  | c => c

/-- The modifier, if it is one that cannot be negated. -/
def fixedModifier : Option Operator → Option Operator
  | some m => if m.isUninvertible then some m else none
  | none => none

/--
The logical inverse. A comparison takes the inverse operator where there is one, a NOT gives back
what it stands before, and anything else is put under a NOT. Orderings, and conjunctions written
as comparisons, have no inverse.
-/
def negate : Clause → Except Error Clause
  | binary l o r =>
    if o.isUninvertible then .error (.uninvertible o)
    else
      match o.inverse? with
      | some inverse => .ok (binary l inverse r)
      | none => .ok (negated (binary l o r))
  | unary o c m =>
    match fixedModifier m with
    | some m => .error (.uninvertible m)
    | none =>
      if o = some .not ∧ m = none then .ok c.underNot
      else .ok (negated (unary o c m))
  | c => .ok (negated c)

end Clause

end BoundSql
