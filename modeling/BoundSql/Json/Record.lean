import BoundSql.Error
import BoundSql.Json.Basic

/-!
# Records in documents

A record is an object with named members or an array of its fields in declared order. The fields
of an object are looked at in the order of their keys, those of an array as they stand; the first
fault counts, and only then a field that is missing or an item that is left over.
-/

namespace BoundSql

/-- The parts of a record, by name or in declared order. -/
inductive Record (α : Type) where
  | named (members : List (String × α))
  | ordered (items : List α)

namespace Record

/-- The field at a place in the declared order, under a name. -/
def field? (r : Record α) (index : Nat) (name : String) : Option α :=
  match r with
  | named members => (members.find? fun m => decide (m.1 = name)).map (·.2)
  | ordered items => items[index]?

/-- A field read by `decode`; it may be missing. -/
def part (r : Record α) (index : Nat) (name : String) (decode : α → Except FormFault β) :
    Except FormFault (Option β) :=
  match r.field? index name with
  | some x => (decode x).map some
  | none => .ok none

/-- The fault of a part. -/
def fault : Except FormFault (Option β) → Option FormFault
  | .error f => some f
  | .ok _ => none

/--
Reports the first fault of the parts, in declared order or in the order of the keys, and then
items beyond the declared fields.
-/
def settle (r : Record α) (declared byKey : List (Option FormFault)) : Except FormFault Unit :=
  match r with
  | named _ =>
    match byKey.findSome? id with
    | some f => .error f
    | none => .ok ()
  | ordered items =>
    match declared.findSome? id with
    | some f => .error f
    | none => if declared.length < items.length then .error .shape else .ok ()

/-- A part that must not be missing. -/
def required (p : Except FormFault (Option β)) : Except FormFault β :=
  match p with
  | .ok (some x) => .ok x
  | .ok none => .error .shape
  | .error f => .error f

/-- A part that has a value of its own when it is missing. -/
def orElse (p : Except FormFault (Option β)) (x : β) : Except FormFault β := p.map (·.getD x)

end Record

namespace Json

/-- The parts of an object or an array. -/
def record : Json → Except FormFault (Record Json)
  | object members => .ok (.named members)
  | array items => .ok (.ordered items)
  | _ => .error .shape

def asString : Json → Except FormFault String
  | string s => .ok s
  | _ => .error .shape

def asBool : Json → Except FormFault Bool
  | bool b => .ok b
  | _ => .error .shape

/-- A natural number below a bound. -/
def asNat (bound : Nat) : Json → Except FormFault Nat
  | int n => if 0 ≤ n ∧ n < bound then .ok n.toNat else .error .shape
  | _ => .error .shape

def asScalar (j : Json) : Except FormFault Scalar :=
  match j.scalar? with
  | some v => .ok v
  | none => .error .shape

def asArray : Json → Except FormFault (List Json)
  | array items => .ok items
  | _ => .error .shape

/-- A value or `null`. -/
def asOption (decode : Json → Except FormFault β) : Json → Except FormFault (Option β)
  | null => .ok none
  | j => (decode j).map some

/-- Nothing, as `null` or as an object without members. -/
def isUnit : Json → Bool
  | null => true
  | object [] => true
  | _ => false

/-- A name out of a choice: the name itself, or an object whose only member has it as key. -/
def asName (j : Json) : Except FormFault String :=
  match j with
  | string s => .ok s
  | object [(key, v)] => if v.isUnit then .ok key else .error .shape
  | _ => .error .shape

end Json

end BoundSql
