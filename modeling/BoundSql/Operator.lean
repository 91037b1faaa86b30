import BoundSql.Text.Blank

/-!
# Operators

The operators of conditions, with their SQL symbols, their logical inverses, and the look-up of
a token. A token that names none of them is kept as it is written.
-/

namespace BoundSql

/-- An SQL operator. -/
inductive Operator where
  | eq | ne | within | is | isNot | lt | le | gt | ge | like | notLike | and | or | not | asc | desc
  /-- A token that names no other operator. -/
  | custom (token : String)
deriving DecidableEq, Inhabited

namespace Operator

/-- The SQL symbol. -/
def symbol : Operator → String
  | eq => "="
  | ne => "!="
  | within => "IN"
  | is => "IS"
  | isNot => "IS NOT"
  | lt => "<"
  | le => "<="
  | gt => ">"
  | ge => ">="
  | like => "LIKE"
  | notLike => "NOT LIKE"
  | and => "AND"
  | or => "OR"
  | not => "NOT"
  | asc => "ASC"
  | desc => "DESC"
  | custom token => token

/-- The operator that holds exactly where this one does not, if it has one. -/
def inverse? : Operator → Option Operator
  | eq => some ne
  | ne => some eq
  | is => some isNot
  | isNot => some is
  | lt => some ge
  | le => some gt
  | gt => some le
  | ge => some lt
  | like => some notLike
  | notLike => some like
  | _ => none

/-- Conjunctions, negation and orderings cannot be negated. -/
def isUninvertible : Operator → Bool
  | and | or | not | asc | desc => true
  | _ => false

def isCustom : Operator → Bool
  | custom _ => true
  | _ => false

/-- The operators that have a symbol of their own. -/
def registered : List Operator :=
  [eq, ne, within, is, isNot, lt, le, gt, ge, like, notLike, and, or, not, asc, desc]

theorem mem_registered (o : Operator) (h : o.isCustom = false) : o ∈ registered := by
  cases o <;> simp_all [registered, isCustom]

/--
The capital of a letter whose capital is an ASCII letter; any other character stays, since no
symbol has a letter beyond ASCII. The dotless i and the long s are the two letters beyond it.
-/
def capital (c : Char) : Char :=
  if c.toNat = 0x131 then 'I' else if c.toNat = 0x17F then 'S' else c.toUpper

/-- The operator whose symbol a token is, without regard to case and surrounding white space. -/
def ofToken (token : String) : Operator :=
  let word := String.ofList ((trimBlank token.toList).map capital)
  (registered.find? fun o => decide (o.symbol = word)).getD (custom token)

end Operator

end BoundSql
