import BoundSql.Scalar.Basic

/-!
# Parameters

Values by name, in the order in which the names were first given.
-/

namespace BoundSql

/-- Values by name, in the order of the names' first insertion. -/
structure Params where
  entries : List (String × Scalar)
deriving DecidableEq

namespace Params

def empty : Params := ⟨[]⟩

/-- The entries with a value set in its place, or at the end for a new name. -/
def put (entries : List (String × Scalar)) (key : String) (v : Scalar) :
    List (String × Scalar) :=
  match entries with
  | [] => [(key, v)]
  | (k, w) :: rest => if k = key then (k, v) :: rest else (k, w) :: put rest key v

def insert (p : Params) (key : String) (v : Scalar) : Params := ⟨put p.entries key v⟩

/-- The parameters of a list of pairs, inserted in turn. -/
def ofList (pairs : List (String × Scalar)) : Params :=
  pairs.foldl (fun p e => p.insert e.1 e.2) empty

def get? (p : Params) (key : String) : Option Scalar :=
  (p.entries.find? fun e => decide (e.1 = key)).map (·.2)

def contains (p : Params) (key : String) : Bool := (p.get? key).isSome

def keys (p : Params) : List String := p.entries.map (·.1)

def size (p : Params) : Nat := p.entries.length

def isEmpty (p : Params) : Bool := p.entries.isEmpty

end Params

end BoundSql
