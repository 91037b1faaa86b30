import BoundSql.Proofs.Condition.Grammar

/-!
# Conditions beside each other

Tokens that read as conditions read as one when they are joined without parentheses, but not as the
two conditions joined: a NOT in front holds for the first factor alone, and an AND for the factors
on its two sides.
-/

namespace BoundSql.Condition

variable {α : Type}

namespace Formula

/-- The outermost part is an AND or an OR without parentheses. -/
def isJoined : Formula α → Bool
  | and _ _ => true
  | or _ _ => true
  | _ => false

/-- What is read with a NOT in front. -/
def negateFirst : Formula α → Formula α
  | and f g => and (negateFirst f) g
  | or f g => or (negateFirst f) g
  | f => not f

theorem isJoined_negateFirst (f : Formula α) : f.negateFirst.isJoined = f.isJoined := by
  cases f <;> rfl

theorem atoms_negateFirst (f : Formula α) : f.negateFirst.atoms = f.atoms := by
  induction f with
  | and f g ihf ihg => exact congrArg (· ++ g.atoms) ihf
  | or f g ihf ihg => exact congrArg (· ++ g.atoms) ihf
  | _ => rfl

end Formula

/-! ### Readings -/

/-- A NOT goes with the first factor, at every level. -/
theorem reads_not (l : Level) (ts : List (Token α)) (f : Formula α) (h : Reads l ts f) :
    Reads l (.not :: ts) f.negateFirst := by
  induction h with
  | atom a => exact .not _ _ (.atom a)
  | not ts f h ih => exact .not _ _ (.not ts f h)
  | group ts f h ih => exact .not _ _ (.group ts f h)
  | factor ts f h ih => exact .factor _ _ ih
  | and ts us f g hf hg ihf ihg => exact .and _ us _ g ihf hg
  | conjunction ts f h ih => exact .conjunction _ _ ih
  | or ts us f g hf hg ihf ihg => exact .or _ us _ g ihf hg

def ReadsJoined (l : Level) (ts : List (Token α)) : Prop :=
  ∃ f, Reads l ts f ∧ f.isJoined = true

theorem readsJoined_or (ts us : List (Token α)) (hf : ∃ f, Reads .condition ts f)
    (g : Formula α) (hg : Reads .conjunction us g) : ReadsJoined .condition (ts ++ .or :: us) := by
  obtain ⟨f, hf⟩ := hf
  exact ⟨.or f g, .or ts us f g hf hg, rfl⟩

/-- Another alternative, when the tokens after the OR are alternatives themselves. -/
theorem readsJoined_append_or (ts us : List (Token α)) (g : Formula α)
    (hf : ∃ f, Reads .condition ts f) (hg : Reads .condition us g) :
    ReadsJoined .condition (ts ++ .or :: us) := by
  generalize hl : Level.condition = l at hg
  induction hg with
  | conjunction us g hg _ => exact readsJoined_or ts us hf g hg
  | or us vs g g' hg hg' ih _ =>
    obtain ⟨h, hreads, _⟩ := ih rfl
    have hnext := readsJoined_or (ts ++ .or :: us) vs ⟨h, hreads⟩ g' hg'
    rw [List.append_assoc] at hnext
    exact hnext
  | _ => cases hl

theorem readsJoined_append_factors (ts us : List (Token α)) (f g : Formula α)
    (hf : Reads .conjunction ts f) (hg : Reads .conjunction us g) :
    ReadsJoined .conjunction (ts ++ .and :: us) := by
  generalize hl : Level.conjunction = l at hg
  induction hg with
  | factor us g hg _ => exact ⟨.and f g, .and ts us f g hf hg, rfl⟩
  | and us vs g g' _ hg' ih _ =>
    obtain ⟨h, hreads, _⟩ := ih rfl
    have hnext := Reads.and (ts ++ .and :: us) vs h g' hreads hg'
    rw [List.append_assoc] at hnext
    exact ⟨_, hnext, rfl⟩
  | _ => cases hl

/-- The last alternative before an AND goes on behind it. -/
theorem readsJoined_append_conjunction (ts us : List (Token α)) (f g : Formula α)
    (hf : Reads .condition ts f) (hg : Reads .conjunction us g) :
    ReadsJoined .condition (ts ++ .and :: us) := by
  cases hf with
  | conjunction _ _ hf =>
    obtain ⟨h, hreads, hjoined⟩ := readsJoined_append_factors ts us f g hf hg
    exact ⟨h, .conjunction _ h hreads, hjoined⟩
  | or ts ts' f f' hf hf' =>
    obtain ⟨h, hreads, _⟩ := readsJoined_append_factors ts' us f' g hf' hg
    have hnext := readsJoined_or ts (ts' ++ .and :: us) ⟨f, hf⟩ h hreads
    rw [List.append_assoc]
    exact hnext

theorem readsJoined_append_and (ts us : List (Token α)) (f g : Formula α)
    (hf : Reads .condition ts f) (hg : Reads .condition us g) :
    ReadsJoined .condition (ts ++ .and :: us) := by
  generalize hl : Level.condition = l at hg
  induction hg with
  | conjunction us g hg _ => exact readsJoined_append_conjunction ts us f g hf hg
  | or us vs g g' _ hg' ih _ =>
    obtain ⟨h, hreads, _⟩ := ih rfl
    have hnext := readsJoined_or (ts ++ .and :: us) vs ⟨h, hreads⟩ g' hg'
    rw [List.append_assoc] at hnext
    exact hnext
  | _ => cases hl

theorem readsJoined_append (k : Connective) (ts us : List (Token α)) (f g : Formula α)
    (hf : Reads .condition ts f) (hg : Reads .condition us g) :
    ReadsJoined .condition (ts ++ k.token :: us) := by
  cases k with
  | and => exact readsJoined_append_and ts us f g hf hg
  | or => exact readsJoined_append_or ts us g ⟨f, hf⟩ hg

end BoundSql.Condition
