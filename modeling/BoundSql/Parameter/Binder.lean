import BoundSql.Error
import BoundSql.Parameter.Params

/-!
# Handing out placeholder names

A binder hands out each name at most once. `bind` numbers the uses of a key and passes over
names that are taken; `record` and `reserve` claim a given name, with or without a value.
-/

namespace BoundSql

/-- The names handed out so far, the last number of each key, and the values bound. -/
structure Binder where
  counters : List (String × Nat) := []
  taken : List String := []
  params : Params := .empty

namespace Binder

/-- The name of a numbered use of a key. -/
def numbered (key : String) (n : Nat) : String := key ++ "_" ++ toString n

/-- The last number given to a key. -/
def counter (b : Binder) (key : String) : Nat :=
  ((b.counters.find? fun e => decide (e.1 = key)).map (·.2)).getD 0

/-- Sets the number of a key. -/
def setCounter (counters : List (String × Nat)) (key : String) (n : Nat) : List (String × Nat) :=
  match counters with
  | [] => [(key, n)]
  | (k, m) :: rest => if k = key then (k, n) :: rest else (k, m) :: setCounter rest key n

/-- The first number after `n` whose name is not taken, among `fuel` numbers. -/
def nextFree (taken : List String) (key : String) (n : Nat) : (fuel : Nat) → Nat
  | 0 => n + 1
  | fuel + 1 =>
    if numbered key (n + 1) ∈ taken then nextFree taken key (n + 1) fuel else n + 1

/-- The number that the next use of a key gets. One of `taken.length + 1` numbers is free. -/
def nextNumber (b : Binder) (key : String) : Nat :=
  nextFree b.taken key (b.counter key) b.taken.length

/-- Binds a value under the next free number of a key. -/
def bind (b : Binder) (key : String) (v : Scalar) : String × Binder :=
  let n := b.nextNumber key
  let name := numbered key n
  (name,
    { counters := setCounter b.counters key n
      taken := name :: b.taken
      params := b.params.insert name v })

/-- Claims a name without a value. -/
def reserve (b : Binder) (name : String) : Except Error Binder :=
  if name ∈ b.taken then .error (.duplicateParameter name)
  else .ok { b with taken := name :: b.taken }

/-- Claims a name for a value. -/
def record (b : Binder) (name : String) (v : Scalar) : Except Error Binder :=
  (b.reserve name).map fun b => { b with params := b.params.insert name v }

/-- A name as SQL text shows it. -/
def placeholder (name : String) : String := ":" ++ name

end Binder

end BoundSql
