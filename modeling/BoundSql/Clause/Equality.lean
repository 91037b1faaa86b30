import BoundSql.Clause.Basic

/-!
# Equality of clauses

Two clauses are the same when they have the same structure and their scalars compare equal as
values. A clause that holds a NaN therefore differs from itself.
-/

namespace BoundSql

namespace Clause

/-- Equality of value lists. -/
def sameValues : Option (List (String × Scalar)) → Option (List (String × Scalar)) → Bool
  | some vs, some ws => Scalar.sameRow vs ws
  | none, none => true
  | _, _ => false

mutual
/-- Equality of structure, with scalars compared as values. -/
def same : Clause → Clause → Bool
  | table s, table t => s.same t
  | named a, named b => decide (a = b)
  | aliased a, aliased b => a.same b
  | column c, column d => c.same d
  | binary l o r, binary l' o' r' => same l l' && decide (o = o') && same r r'
  | unary o c m, unary o' c' m' => decide (o = o') && same c c' && decide (m = m')
  | junction o cs, junction o' cs' => decide (o = o') && sameAll cs cs'
  | group c, group c' => same c c'
  | sequence cs s, sequence cs' s' => sameAll cs cs' && decide (s = s')
  | bind k v, bind k' v' => decide (k = k') && v.same v'
  | null, null => true
  | join l r o b, join l' r' o' b' => same l l' && same r r' && same o o' && b == b'
  | select cs fs w o l f d, select cs' fs' w' o' l' f' d' =>
    sameAll cs cs' && sameAll fs fs' && sameOption w w' && sameOrder o o' && decide (l = l') &&
      decide (f = f') && d == d'
  | insert t v, insert t' v' => t.same t' && sameValues v v'
  | update t v w, update t' v' w' => t.same t' && sameValues v v' && sameOption w w'
  | delete t w, delete t' w' => t.same t' && sameOption w w'
  | _, _ => false
termination_by structural c => c

def sameAll : List Clause → List Clause → Bool
  | [], [] => true
  | c :: cs, d :: ds => same c d && sameAll cs ds
  | _, _ => false
termination_by structural cs => cs

def sameOption : Option Clause → Option Clause → Bool
  | none, none => true
  | some c, some d => same c d
  | _, _ => false
termination_by structural c => c

def sameOrder : Option (OrderTerms Clause) → Option (OrderTerms Clause) → Bool
  | none, none => true
  | some ⟨cs, s⟩, some ⟨ds, t⟩ => sameAll cs ds && decide (s = t)
  | _, _ => false
termination_by structural o => o
end

end Clause

end BoundSql
