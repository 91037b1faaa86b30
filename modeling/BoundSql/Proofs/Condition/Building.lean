import BoundSql.Clause.Condition
import BoundSql.Proofs.Condition.Negation
import BoundSql.Proofs.Condition.Reading
import Mathlib.Logic.ExistsUnique

/-!
# Conditions as they are built

The conditions that comparisons of columns, conjunctions, negation and parentheses build read as
they were meant: their parentheses are enough for the precedence of NOT, AND and OR.
-/

namespace BoundSql

open Condition

/-- A value, or a clause that stands for one. -/
def Operand.isPlain : Operand → Bool
  | .value _ => true
  | .clause c => c.isOperand

namespace ColumnRef

theorem isOperand_operandClause (c : ColumnRef) (x : Operand) (hx : x.isPlain = true) :
    (c.operandClause x).isOperand = true := by
  cases x with
  | value v => cases v <;> rfl
  | clause d => exact hx

theorem comparing_mem (o : Operator) (x : Operand) (ho : o ∈ Operator.comparisons) :
    comparing o x ∈ Operator.comparisons := by
  unfold comparing
  split
  · decide
  · decide
  · exact ho

end ColumnRef

namespace Clause

/-- The conditions that can be built. -/
inductive Built : Clause → Prop
  /-- A comparison with a value or another column, for null or not null among them. -/
  | compare (c : ColumnRef) (o : Operator) (x : Operand) (ho : o ∈ Operator.comparisons)
    (hx : x.isPlain = true) : Built (c.compare o x)
  | within (c : ColumnRef) (xs : List Operand) (hxs : ∀ x ∈ xs, x.isPlain = true) :
    Built (c.within xs)
  | allOf (cs : List Clause) (hcs : ∀ c ∈ cs, Built c) : Built (allOf cs)
  | anyOf (cs : List Clause) (hcs : ∀ c ∈ cs, Built c) : Built (anyOf cs)
  | negate (c d : Clause) (hc : Built c) (h : c.negate = .ok d) : Built d
  | group (c : Clause) (hc : Built c) : Built (.group c)

/-! ### Building readable conditions -/

theorem readable_compare (c : ColumnRef) (o : Operator) (x : Operand)
    (ho : o ∈ Operator.comparisons) (hx : x.isPlain = true) : Readable (c.compare o x) :=
  .comparison _ (.operands _ _ _ rfl (c.isOperand_operandClause x hx)
    (ColumnRef.comparing_mem o x ho))

theorem readable_within (c : ColumnRef) (xs : List Operand) (hxs : ∀ x ∈ xs, x.isPlain = true) :
    Readable (c.within xs) := by
  cases xs with
  | nil => exact .comparison _ (.operands .null .null .isNot rfl rfl (by decide))
  | cons x xs =>
    refine .comparison _ (.listed (.column c) _ rfl ?_)
    intro d hd
    obtain ⟨y, hy, rfl⟩ := List.mem_map.mp hd
    exact c.isOperand_operandClause y (hxs y hy)

theorem readable_asMember (c : Clause) (hc : Readable c) : Readable c.asMember := by
  unfold asMember
  split
  · exact .group _ hc
  · exact hc

theorem readable_joinedBy (o : Operator) (cs : List Clause) (ho : o.connective?.isSome)
    (hcs : ∀ c ∈ cs, Readable c) : Readable (joinedBy o cs) := by
  refine .junction o _ ho ?_
  intro d hd
  obtain ⟨c, hc, rfl⟩ := List.mem_map.mp hd
  exact readable_asMember c (hcs c hc)

theorem mem_comparisons_of_inverse (o p : Operator) (ho : o ∈ Operator.comparisons)
    (h : o.inverse? = some p) : p ∈ Operator.comparisons := by
  cases o <;> cases h <;> decide

theorem readable_negated (c : Clause) (hc : Readable c) : Readable c.negated :=
  .not _ (.group c hc) rfl

theorem readable_underNot (c : Clause) (hc : Readable c) : Readable c.underNot := by
  unfold underNot
  split
  · next d =>
    cases hc with
    | comparison _ h => cases h
    | group _ h => exact h
  · exact hc

theorem readable_negate (c d : Clause) (hc : Readable c) (h : c.negate = .ok d) :
    Readable d := by
  obtain ⟨l, o, p, r, rfl, hp, rfl⟩ | ⟨e, rfl, rfl⟩ | ⟨_, rfl⟩ := negate_cases c d h
  · cases hc with
    | comparison _ hc =>
      cases hc with
      | operands l r o hl hr ho =>
        exact .comparison _ (.operands l r p hl hr (mem_comparisons_of_inverse o p ho hp))
      | listed l cs hl hcs => cases hp
  · cases hc with
    | comparison _ hc => cases hc
    | not e he hj => exact readable_underNot e he
  · exact readable_negated c hc

theorem readable_of_built (c : Clause) (hc : Built c) : Readable c := by
  induction hc with
  | compare c o x ho hx => exact readable_compare c o x ho hx
  | within c xs hxs => exact readable_within c xs hxs
  | allOf cs hcs ih => exact readable_joinedBy .and cs rfl ih
  | anyOf cs hcs ih => exact readable_joinedBy .or cs rfl ih
  | negate c d hc h ih => exact readable_negate c d ih h
  | group c hc ih => exact .group c ih

/--
A built condition that renders is a text of tokens, in which each of its comparisons is an atom.
The tokens read as exactly one formula by the precedence of NOT, AND and OR, and that formula has
the comparisons of the condition, in their order, and its truth value, however true each of the
comparisons is.
-/
theorem compile_reads_back (q : Quoting) (c : Clause) (s : Statement) (hc : Built c)
    (h : c.compile q = .ok s) :
    (∃ texts, List.Forall₂ (Token.Spells q) c.tokens texts ∧ s.sql = String.join texts) ∧
      (∀ a ∈ c.comparisons, a.Comparison) ∧
      (∃! f, Reads .condition c.tokens f) ∧
      ∀ f, Reads .condition c.tokens f →
        f.atoms = c.comparisons ∧ ∀ v, f.value v = c.truth v := by
  obtain ⟨texts, b, hfill, hsql, _⟩ := compile_ok q c s h
  have hwhole := Template.whole_of_fill_ok {} _ _ hfill
  rw [template_tokens q c hwhole] at hfill
  obtain ⟨spelled, hspelled, hjoin⟩ := Token.spells_of_fill q {} b c.tokens texts hfill
  have hreadable := readable_of_built c hc
  obtain ⟨f, hreads, hatoms, hvalue⟩ := (readsAs_tokens q c hreadable hwhole).1
  refine ⟨⟨spelled, hspelled, hsql.trans hjoin⟩, comparison_of_mem c hreadable, ?_, ?_⟩
  · exact ⟨f, hreads, fun g hg => Reads.unique _ g f hg hreads⟩
  · intro g hg
    rw [Reads.unique _ g f hg hreads]
    exact ⟨hatoms, fun v => hvalue v 0⟩

/-- Membership of a game in a list, with a null in it. -/
def listedGame : Clause :=
  ColumnRef.within { name := "name" } [.value (.text "Go"), .value .null]

/-- Games with a high score that are not in the list, or have no name. -/
def unlistedGames : Clause :=
  .allOf [ColumnRef.compare { name := "score" } .gt (.value (.int 5)),
    .anyOf [listedGame.negated, ColumnRef.isNull { name := "name" }]]

theorem built_unlistedGames : Built unlistedGames := by
  have hlisted : Built listedGame := .within _ _ (by decide)
  have hscore : Built (ColumnRef.compare { name := "score" } .gt (.value (.int 5))) :=
    .compare _ _ _ (by decide) rfl
  have hunnamed : Built (ColumnRef.isNull { name := "name" }) := .compare _ _ _ (by decide) rfl
  have hunlisted : Built listedGame.negated := .negate _ _ hlisted rfl
  have hany : Built (.anyOf [listedGame.negated, ColumnRef.isNull { name := "name" }]) := by
    refine .anyOf _ fun c hc => ?_
    rcases List.mem_pair.mp hc with rfl | rfl
    · exact hunlisted
    · exact hunnamed
  refine .allOf _ fun c hc => ?_
  rcases List.mem_pair.mp hc with rfl | rfl
  · exact hscore
  · exact hany

theorem compile_reads_back_unlistedGames :
    unlistedGames.compile .plain = .ok
        ⟨"score > :score_1 AND (NOT (name IN (:name_1,NULL)) OR name IS NULL)",
          ⟨[("score_1", .int 5), ("name_1", .text "Go")]⟩⟩ ∧
      (∃ texts, List.Forall₂ (Token.Spells .plain) unlistedGames.tokens texts ∧
        "score > :score_1 AND (NOT (name IN (:name_1,NULL)) OR name IS NULL)"
          = String.join texts) ∧
      (∀ a ∈ unlistedGames.comparisons, a.Comparison) ∧
      (∃! f, Reads .condition unlistedGames.tokens f) ∧
      ∀ f, Reads .condition unlistedGames.tokens f →
        f.atoms = unlistedGames.comparisons ∧ ∀ v, f.value v = unlistedGames.truth v :=
  ⟨rfl, compile_reads_back .plain unlistedGames _ built_unlistedGames rfl⟩

end Clause

end BoundSql
