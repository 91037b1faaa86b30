import BoundSql.Proofs.Clause.Failure
import BoundSql.Proofs.Condition.Negation

/-!
# Negating twice

A negated condition binds the values of the condition, under the same names and in the same order:
only texts differ. Negating once more gives the condition back as it was, unless it was itself a
NOT, which negation takes away together with the parentheses after it.
-/

namespace BoundSql

namespace Clause

/-! ### Parameters -/

theorem acts_binary (q : Quoting) (l r : Clause) (o p : Operator) :
    Template.acts ((binary l o r).template q) = Template.acts ((binary l p r).template q) := by
  rw [acts_template, acts_template]
  rfl

theorem acts_underNot (q : Quoting) (c : Clause) :
    Template.acts (c.underNot.template q) = Template.acts (c.template q) := by
  cases c with
  | group c => exact (acts_group q c).symm
  | _ => rfl

theorem acts_of_negate (q : Quoting) (c d : Clause) (h : c.negate = .ok d) :
    Template.acts (d.template q) = Template.acts (c.template q) := by
  obtain ⟨l, o, p, r, rfl, _, rfl⟩ | ⟨e, rfl, rfl⟩ | ⟨_, rfl⟩ := negate_cases c d h
  · exact acts_binary q l r p o
  · rw [acts_underNot, acts_unary]
  · rw [negated, acts_unary, acts_group]

/-- The parameters, and the error where there are none, come from the acts of the template. -/
theorem params_of_compile (q : Quoting) (c : Clause) :
    (c.compile q).map Statement.params
      = (Template.run {} (Template.acts (c.template q))).map Binder.params := by
  rw [Template.run_acts, compile, Template.run]
  cases Template.fill {} (c.template q) <;> rfl

/-! ### Negating back -/

theorem negate_negated (c : Clause) : c.negated.negate = .ok c := by
  simp only [negated, negate, fixedModifier, and_self, ite_true, underNot]

theorem negate_inverse (l r : Clause) (o p : Operator) (h : o.inverse? = some p) :
    (binary l p r).negate = .ok (binary l o r) := by
  have hfree := o.isUninvertible_inverse p h
  have hback := o.inverse_inverse p h
  simp only [negate, hfree, hback, Bool.false_eq_true, ite_false]

/--
A condition and its negation fail to render with the same error, or render with the same
parameters. Negating the negation gives the condition back, if this is not a NOT without a modifier.
-/
theorem negate_involutive (c d : Clause) (h : c.negate = .ok d) :
    (∀ q, (c.compile q).map Statement.params = (d.compile q).map Statement.params) ∧
      ((∀ e, c ≠ .unary (some .not) e none) → d.negate = .ok c) := by
  refine ⟨fun q => ?_, fun hnot => ?_⟩
  · rw [params_of_compile, params_of_compile, acts_of_negate q c d h]
  · obtain ⟨l, o, p, r, rfl, hp, rfl⟩ | ⟨e, rfl, rfl⟩ | ⟨_, rfl⟩ := negate_cases c d h
    · exact negate_inverse l r o p hp
    · exact absurd rfl (hnot e)
    · exact negate_negated c

/-- Membership of a game in a list, twice in parentheses. -/
def groupedGame : Clause :=
  .group (.group (ColumnRef.within { name := "name" } [.value (.text "Go"), .value .null]))

theorem negate_involutive_groupedGame :
    (groupedGame.negate = .ok groupedGame.negated ∧
      (groupedGame.compile .plain).map Statement.params
        = (groupedGame.negated.compile .plain).map Statement.params ∧
      groupedGame.negated.compile .plain
        = .ok ⟨"NOT (name IN (:name_1,NULL))", ⟨[("name_1", .text "Go")]⟩⟩ ∧
      groupedGame.negated.negate = .ok groupedGame) ∧
    (Clause.anyOf []).compile .plain = .error (.empty .orList) ∧
    ((Clause.anyOf []).compile .plain).map Statement.params
      = ((Clause.anyOf []).negated.compile .plain).map Statement.params := by
  obtain ⟨hparams, hback⟩ := negate_involutive groupedGame groupedGame.negated rfl
  obtain ⟨hfails, _⟩ := negate_involutive (.anyOf []) _ rfl
  exact ⟨⟨rfl, hparams .plain, rfl, hback nofun⟩, rfl, hfails .plain⟩

end Clause

end BoundSql
