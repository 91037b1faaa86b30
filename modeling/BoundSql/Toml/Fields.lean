import BoundSql.Toml.Basic

/-!
# Settings in TOML documents

A group of settings is a table, or an array of the settings in declared order. Each is read as a
given sort of value; one of another sort makes the whole group unreadable.
-/

namespace BoundSql

namespace Toml

/-- The values of a table by key, or of an array by place. -/
inductive Fields where
  | named (entries : List (String × Toml))
  | ordered (items : List Toml)

/-- The settings that a value holds. -/
def fields? : Toml → Option Fields
  | table entries => some (.named entries)
  | array items => some (.ordered items)
  | _ => none

def asString? : Toml → Option String
  | string s => some s
  | _ => none

def asBool? : Toml → Option Bool
  | bool b => some b
  | _ => none

/-- A natural number below `2 ^ 32`. -/
def asLength? : Toml → Option UInt32
  | int n =>
    if 0 ≤ n.toInt ∧ n.toInt < Int.pow 2 32 then some (UInt32.ofNat n.toInt.toNat) else none
  | _ => none

def asArray? : Toml → Option (List Toml)
  | array items => some items
  | _ => none

/-- Nothing but a name: an empty table or array. -/
def isEmpty : Toml → Bool
  | table [] => true
  | array [] => true
  | _ => false

/-- A name out of a choice: a text, or a table whose only key has nothing. -/
def asName? : Toml → Option String
  | string s => some s
  | table [(key, v)] => if v.isEmpty then some key else none
  | _ => none

namespace Fields

/-- The setting of a name at a place. -/
def get? (f : Fields) (index : Nat) (name : String) : Option Toml :=
  match f with
  | named entries => find? entries name
  | ordered items => items[index]?

/-- A setting that may be missing; the outer option is empty when it is of another sort. -/
def optional (f : Fields) (index : Nat) (name : String) (read : Toml → Option α) :
    Option (Option α) :=
  match f.get? index name with
  | some v => (read v).map some
  | none => some none

/-- A setting that must not be missing. -/
def required (f : Fields) (index : Nat) (name : String) (read : Toml → Option α) : Option α :=
  (f.get? index name).bind read

end Fields

end Toml

end BoundSql
