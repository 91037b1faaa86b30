import BoundSql.Proofs.Clause.Induction
import Mathlib.Data.List.Basic

/-!
# Nodes of a clause

The nodes of a clause are the clause itself and the nodes of the clauses below it, in the order in
which they are rendered. A walk over a clause that treats every node by itself needs no induction
of its own: it is settled node by node, from the children of each.
-/

namespace BoundSql.Clause

/-- The clauses directly below a clause, in the order in which they are rendered. -/
def children : Clause → List Clause
  | binary l _ r => [l, r]
  | unary _ c _ => [c]
  | junction _ cs => cs
  | group c => [c]
  | sequence cs _ => cs
  | join l r on _ => [l, r, on]
  | select columns froms condition order _ _ _ =>
    columns ++ froms ++ condition.toList ++ order.elim [] OrderTerms.terms
  | update _ _ condition => condition.toList
  | delete _ condition => condition.toList
  | _ => []

mutual
/-- A clause and all clauses below it. -/
def nodes : Clause → List Clause
  | binary l o r => binary l o r :: (nodes l ++ nodes r)
  | unary o c m => unary o c m :: nodes c
  | junction o cs => junction o cs :: nodesOfAll cs
  | group c => group c :: nodes c
  | sequence cs separator => sequence cs separator :: nodesOfAll cs
  | join l r on outer => join l r on outer :: (nodes l ++ nodes r ++ nodes on)
  | select columns froms condition order limit offset distinct =>
    select columns froms condition order limit offset distinct
      :: (nodesOfAll columns ++ nodesOfAll froms
        ++ (match condition with
            | some c => nodes c
            | none => [])
        ++ (match order with
            | some ⟨terms, _⟩ => nodesOfAll terms
            | none => []))
  | update t values condition =>
    update t values condition
      :: (match condition with
          | some c => nodes c
          | none => [])
  | delete t condition =>
    delete t condition
      :: (match condition with
          | some c => nodes c
          | none => [])
  | c => [c]

def nodesOfAll : List Clause → List Clause
  | [] => []
  | c :: cs => nodes c ++ nodesOfAll cs
end

theorem nodesOfAll_eq_flatMap (cs : List Clause) : nodesOfAll cs = cs.flatMap nodes := by
  induction cs with
  | nil => rfl
  | cons c cs ih => rw [nodesOfAll, ih, List.flatMap_cons]

theorem nodes_eq (c : Clause) : c.nodes = c :: c.children.flatMap nodes := by
  cases c with
  | select columns froms condition order limit offset distinct =>
    cases condition <;> cases order <;>
      simp [nodes, children, nodesOfAll_eq_flatMap]
  | update t values condition => cases condition <;> simp [nodes, children]
  | delete t condition => cases condition <;> simp [nodes, children]
  | _ => simp [nodes, children, nodesOfAll_eq_flatMap]

theorem forall_children_select (P : Clause → Prop) (columns froms : List Clause)
    (condition : Option Clause) (order : Option (OrderTerms Clause)) (limit offset : Option UInt64)
    (distinct : Bool) :
    (∀ d ∈ (select columns froms condition order limit offset distinct).children, P d) ↔
      (∀ d ∈ columns, P d) ∧ (∀ d ∈ froms, P d) ∧ (∀ d ∈ condition, P d) ∧
        ∀ o ∈ order, ∀ d ∈ OrderTerms.terms o, P d := by
  simp only [children, List.forall_mem_append, Option.mem_toList, and_assoc]
  cases order <;> simp

/-- Induction over clauses when no case is treated by itself. -/
@[elab_as_elim]
theorem induct_children {motive : Clause → Prop}
    (step : ∀ c, (∀ d ∈ c.children, motive d) → motive c) (c : Clause) : motive c := by
  induction c using Clause.induct with
  | binary l o r ihl ihr => exact step _ (by simpa [children] using ⟨ihl, ihr⟩)
  | unary o c m ih => exact step _ (by simpa [children] using ih)
  | junction o cs ih => exact step _ ih
  | group c ih => exact step _ (by simpa [children] using ih)
  | sequence cs separator ih => exact step _ ih
  | join l r on outer ihl ihr ihon =>
    exact step _ (by simpa [children] using ⟨ihl, ihr, ihon⟩)
  | select columns froms condition order limit offset distinct ihc ihf ihw iho =>
    exact step _ ((forall_children_select motive ..).mpr ⟨ihc, ihf, ihw, iho⟩)
  | update t values condition ih => exact step _ (by simpa [children] using ih)
  | delete t condition ih => exact step _ (by simpa [children] using ih)
  | _ => exact step _ fun d hd => absurd hd List.not_mem_nil

/-- What holds at every node holds at the clause and at every node of its children. -/
theorem forall_nodes (P : Clause → Prop) (c : Clause) :
    (∀ d ∈ c.nodes, P d) ↔ P c ∧ ∀ d ∈ c.children, ∀ e ∈ d.nodes, P e := by
  rw [nodes_eq, List.forall_mem_cons]
  simp only [List.forall_mem_flatMap]

theorem self_mem_nodes (c : Clause) : c ∈ c.nodes := by
  rw [nodes_eq]
  exact List.mem_cons_self ..

end BoundSql.Clause
