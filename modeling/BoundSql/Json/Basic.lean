import BoundSql.Scalar.Basic

/-!
# JSON documents

Documents as trees, and how deep they nest. An object keeps its members in the order given; a
number is an integer or a float.
-/

namespace BoundSql

/-- A JSON document. -/
inductive Json where
  | null
  | bool (b : Bool)
  | int (n : Int)
  | float (x : Binary64)
  | string (s : String)
  | array (items : List Json)
  | object (members : List (String × Json))

namespace Json

/-- The value of a member, if there is one of that key. -/
def member? (members : List (String × Json)) (key : String) : Option Json :=
  (members.find? fun m => decide (m.1 = key)).map (·.2)

mutual
/-- How many arrays and objects stand inside one another at most. -/
def depth : Json → Nat
  | array items => depthOfItems items + 1
  | object members => depthOfMembers members + 1
  | _ => 0

def depthOfItems : List Json → Nat
  | [] => 0
  | j :: js => max j.depth (depthOfItems js)

def depthOfMembers : List (String × Json) → Nat
  | [] => 0
  | (_, j) :: ms => max j.depth (depthOfMembers ms)
end

/-- The document of a scalar; a float that is not finite becomes `null`. -/
def ofScalar : Scalar → Json
  | .null => null
  | .bool b => bool b
  | .int n => int n.toInt
  | .float x => if x.isFinite then float x else null
  | .date d => string (String.ofList d.toText)
  | .moment m => string (String.ofList m.toText)
  | .text s => string s

/-- The scalar of a document that is neither an array nor an object. -/
def scalar? : Json → Option Scalar
  | null => some .null
  | bool b => some (.bool b)
  | int n => some (.ofInteger n)
  | float x => some (.float x)
  | string s => some (.ofText s)
  | array _ => none
  | object _ => none

end Json

end BoundSql
