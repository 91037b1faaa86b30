import Mathlib.Data.List.Basic
import BoundSql.Json.Reader

/-!
# Parts of documents

A document holds other documents as items and as values of members. `Json.induct` is induction
over both at once; the parts of a document are the document itself and the parts of what it holds;
`sorted` is the document with the members of its objects as the reader leaves them.
-/

namespace BoundSql.Json

/-- Induction over documents: a case may use the statement of every document directly inside. -/
@[elab_as_elim]
theorem induct {motive : Json → Prop} (null : motive .null) (bool : ∀ b, motive (.bool b))
    (int : ∀ n, motive (.int n)) (float : ∀ x, motive (.float x))
    (string : ∀ s, motive (.string s))
    (array : ∀ items, (∀ j ∈ items, motive j) → motive (.array items))
    (object : ∀ members, (∀ m ∈ members, motive m.2) → motive (.object members))
    (j : Json) : motive j := by
  refine @Json.rec motive (fun js => ∀ j ∈ js, motive j) (fun ms => ∀ m ∈ ms, motive m.2)
    (fun m => motive m.2) null bool int float string array object ?_ ?_ ?_ ?_ ?_ j
  · exact fun j hj => absurd hj List.not_mem_nil
  · intro j js hj hjs i hi
    rcases List.mem_cons.mp hi with rfl | hi
    · exact hj
    · exact hjs i hi
  · exact fun m hm => absurd hm List.not_mem_nil
  · intro m ms hm hms n hn
    rcases List.mem_cons.mp hn with rfl | hn
    · exact hm
    · exact hms n hn
  · exact fun key j hj => hj

mutual
/-- A document and all documents inside it. -/
def parts : Json → List Json
  | array items => array items :: partsOfItems items
  | object members => object members :: partsOfMembers members
  | j => [j]

def partsOfItems : List Json → List Json
  | [] => []
  | j :: js => parts j ++ partsOfItems js

def partsOfMembers : List (String × Json) → List Json
  | [] => []
  | (_, j) :: ms => parts j ++ partsOfMembers ms
end

theorem forall_parts_array (P : Json → Prop) (items : List Json) :
    (∀ d ∈ (array items).parts, P d) ↔ P (array items) ∧ ∀ j ∈ items, ∀ d ∈ j.parts, P d := by
  have hitems : partsOfItems items = items.flatMap parts := by
    induction items with
    | nil => rfl
    | cons j js ih => rw [partsOfItems, ih, List.flatMap_cons]
  rw [parts, hitems, List.forall_mem_cons]
  simp only [List.forall_mem_flatMap]

theorem forall_parts_object (P : Json → Prop) (members : List (String × Json)) :
    (∀ d ∈ (object members).parts, P d) ↔
      P (object members) ∧ ∀ m ∈ members, ∀ d ∈ m.2.parts, P d := by
  have hmembers : partsOfMembers members = members.flatMap fun m => m.2.parts := by
    induction members with
    | nil => rfl
    | cons m ms ih => rw [partsOfMembers, ih, List.flatMap_cons]
  rw [parts, hmembers, List.forall_mem_cons]
  simp only [List.forall_mem_flatMap]

/-! ### Depth -/

theorem depthOfItems_le (items : List Json) (n : Nat) :
    depthOfItems items ≤ n ↔ ∀ j ∈ items, j.depth ≤ n := by
  induction items with
  | nil => simp [depthOfItems]
  | cons j js ih => rw [depthOfItems, Nat.max_le, ih, List.forall_mem_cons]

theorem depthOfMembers_le (members : List (String × Json)) (n : Nat) :
    depthOfMembers members ≤ n ↔ ∀ m ∈ members, m.2.depth ≤ n := by
  induction members with
  | nil => simp [depthOfMembers]
  | cons m ms ih => rw [depthOfMembers, Nat.max_le, ih, List.forall_mem_cons]

/-! ### Order of members -/

mutual
/-- The document with the members of every object in the order of their keys. -/
def sorted : Json → Json
  | array items => array (sortedItems items)
  | object members => object (sortedMembers members)
  | j => j

def sortedItems : List Json → List Json
  | [] => []
  | j :: js => sorted j :: sortedItems js

def sortedMembers : List (String × Json) → List (String × Json)
  | [] => []
  | (key, j) :: ms => addMember key (sorted j) (sortedMembers ms)
end

theorem sortedItems_eq_map (items : List Json) : sortedItems items = items.map sorted := by
  induction items with
  | nil => rfl
  | cons j js ih => rw [sortedItems, ih, List.map_cons]

end BoundSql.Json
