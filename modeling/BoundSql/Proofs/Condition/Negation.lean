import BoundSql.Clause.Condition

/-!
# Negation over nulls

Over rows with nulls a condition is true, false or unknown. Whatever the operators mean, as long as
the two of each inverse pair are complementary, negation makes the complement of every condition
that it does not refuse, and it refuses nothing but orderings and operators that join conditions.
-/

namespace BoundSql

/-! ### Truth values -/

/-- A truth value of Kleene's logic. -/
inductive Kleene where
  | no
  | unknown
  | yes
deriving DecidableEq

namespace Kleene

def ofBool (b : Bool) : Kleene := if b then yes else no

def not : Kleene → Kleene
  | no => yes
  | unknown => unknown
  | yes => no

def and : Kleene → Kleene → Kleene
  | no, _ => no
  | _, no => no
  | yes, yes => yes
  | _, _ => unknown

def or : Kleene → Kleene → Kleene
  | yes, _ => yes
  | _, yes => yes
  | no, no => no
  | _, _ => unknown

theorem not_not (t : Kleene) : t.not.not = t := by
  cases t <;> rfl

theorem ofBool_not (b : Bool) : ofBool (!b) = (ofBool b).not := by
  cases b <;> rfl

end Kleene

namespace Operator

/-- The pairs of operators that are each other's inverse. -/
def inversePairs : List (Operator × Operator) :=
  [(.eq, .ne), (.is, .isNot), (.lt, .ge), (.le, .gt), (.like, .notLike)]

/-- The operators that join conditions or order rows. -/
def joining : List Operator := [.and, .or, .not, .asc, .desc]

theorem mem_inversePairs (o p : Operator) (h : o.inverse? = some p) :
    (o, p) ∈ inversePairs ∨ (p, o) ∈ inversePairs := by
  cases o <;> cases h <;> decide

theorem inverse_inverse (o p : Operator) (h : o.inverse? = some p) : p.inverse? = some o := by
  cases o <;> cases h <;> rfl

theorem isUninvertible_inverse (o p : Operator) (h : o.inverse? = some p) :
    p.isUninvertible = false := by
  cases o <;> cases h <;> rfl

theorem isUninvertible_iff (o : Operator) : o.isUninvertible = true ↔ o ∈ joining := by
  cases o <;> simp [isUninvertible, joining]

end Operator

/-! ### Meanings -/

/-- What operators and operands mean in the rows of a table; a value that is `none` is null. -/
structure Meaning (Row Value : Type) where
  operand : Row → Clause → Option Value
  holds : Operator → Option Value → Option Value → Kleene
  /-- The truth of a clause that is no comparison and is not made of conditions. -/
  other : Row → Clause → Kleene
  complementary : ∀ pair ∈ Operator.inversePairs, ∀ x y,
    holds pair.2 x y = (holds pair.1 x y).not

namespace Meaning

variable {Row Value : Type}

mutual
/-- The truth of a condition in a row. -/
def truth (I : Meaning Row Value) (row : Row) : Clause → Kleene
  | .binary l o r => I.holds o (I.operand row l) (I.operand row r)
  | .unary o c m =>
    if o = some .not ∧ m = none then (truth I row c).not else I.other row (.unary o c m)
  | .group c => truth I row c
  | .junction .and cs => truthOfAll I row cs
  | .junction .or cs => truthOfAny I row cs
  | c => I.other row c

def truthOfAll (I : Meaning Row Value) (row : Row) : List Clause → Kleene
  | [] => .yes
  | c :: cs => (truth I row c).and (truthOfAll I row cs)

def truthOfAny (I : Meaning Row Value) (row : Row) : List Clause → Kleene
  | [] => .no
  | c :: cs => (truth I row c).or (truthOfAny I row cs)
end

theorem holds_inverse (I : Meaning Row Value) (o p : Operator) (h : o.inverse? = some p)
    (x y : Option Value) : I.holds p x y = (I.holds o x y).not := by
  rcases Operator.mem_inversePairs o p h with hpair | hpair
  · exact I.complementary (o, p) hpair x y
  · have hback := I.complementary (p, o) hpair x y
    rw [hback, Kleene.not_not]

theorem truth_negated (I : Meaning Row Value) (row : Row) (c : Clause) :
    I.truth row c.negated = (I.truth row c).not := by
  simp only [Clause.negated, truth, and_self, ite_true]

theorem truth_underNot (I : Meaning Row Value) (row : Row) (c : Clause) :
    I.truth row c.underNot = I.truth row c := by
  cases c with
  | group c => simp only [Clause.underNot, truth]
  | _ => rfl

end Meaning

/-! ### Negation -/

namespace Clause

theorem fixedModifier_eq_some (m : Option Operator) (o : Operator) :
    fixedModifier m = some o ↔ m = some o ∧ o ∈ Operator.joining := by
  cases m with
  | none => simp [fixedModifier]
  | some p =>
    rw [← Operator.isUninvertible_iff]
    by_cases hp : p.isUninvertible = true
    · simp only [fixedModifier, hp, ite_true, Option.some.injEq]
      constructor
      · rintro rfl
        exact ⟨rfl, hp⟩
      · exact And.left
    · simp only [fixedModifier, hp, Option.some.injEq]
      constructor
      · intro h
        cases h
      · rintro ⟨rfl, ho⟩
        exact absurd ho hp

/-- A comparison takes the inverse operator, a NOT is taken away, and all else goes under a NOT. -/
theorem negate_cases (c d : Clause) (h : c.negate = .ok d) :
    (∃ l o p r, c = .binary l o r ∧ o.inverse? = some p ∧ d = .binary l p r) ∨
      (∃ e, c = .unary (some .not) e none ∧ d = e.underNot) ∨
      ((∀ e, c ≠ .unary (some .not) e none) ∧ d = c.negated) := by
  cases c with
  | binary l o r =>
    simp only [negate] at h
    split at h
    · cases h
    · split at h
      · next p hp =>
        cases h
        exact Or.inl ⟨l, o, p, r, rfl, hp, rfl⟩
      · cases h
        exact Or.inr (Or.inr ⟨nofun, rfl⟩)
  | unary o c m =>
    simp only [negate] at h
    split at h
    · cases h
    · split at h
      · next hnot =>
        obtain ⟨rfl, rfl⟩ := hnot
        cases h
        exact Or.inr (Or.inl ⟨c, rfl, rfl⟩)
      · next hnot =>
        cases h
        refine Or.inr (Or.inr ⟨?_, rfl⟩)
        rintro e he
        cases he
        exact hnot ⟨rfl, rfl⟩
  | _ =>
    cases h
    exact Or.inr (Or.inr ⟨nofun, rfl⟩)

theorem truth_of_negate {Row Value : Type} (I : Meaning Row Value) (row : Row) (c d : Clause)
    (h : c.negate = .ok d) : I.truth row d = (I.truth row c).not := by
  obtain ⟨l, o, p, r, rfl, hp, rfl⟩ | ⟨e, rfl, rfl⟩ | ⟨_, rfl⟩ := negate_cases c d h
  · exact I.holds_inverse o p hp _ _
  · -- What the NOT stands before is the complement of its own complement.
    rw [I.truth_underNot, Meaning.truth, if_pos ⟨rfl, rfl⟩, Kleene.not_not]
  · exact I.truth_negated row c

theorem negate_binary_eq_error (l r : Clause) (o : Operator) (e : Error) :
    (binary l o r).negate = .error e ↔ o ∈ Operator.joining ∧ e = .uninvertible o := by
  rw [← Operator.isUninvertible_iff]
  simp only [negate]
  by_cases ho : o.isUninvertible = true
  · simp only [ho, ite_true, Except.error.injEq, true_and]
    exact eq_comm
  · simp only [ho]
    cases o.inverse? <;> simp

theorem negate_unary_eq_error (p m : Option Operator) (d : Clause) (e : Error) :
    (unary p d m).negate = .error e ↔
      ∃ o ∈ Operator.joining, m = some o ∧ e = .uninvertible o := by
  simp only [negate]
  cases hm : fixedModifier m with
  | none =>
    have hfree : ∀ o ∈ Operator.joining, m ≠ some o := by
      intro o ho hmo
      have hsome := (fixedModifier_eq_some m o).mpr ⟨hmo, ho⟩
      rw [hm] at hsome
      cases hsome
    constructor
    · intro h
      by_cases hnot : p = some .not ∧ m = none <;> simp [hnot] at h
    · rintro ⟨o, ho, hmo, _⟩
      exact absurd hmo (hfree o ho)
  | some o =>
    obtain ⟨rfl, hmem⟩ := (fixedModifier_eq_some m o).mp hm
    simp only [Except.error.injEq]
    constructor
    · rintro rfl
      exact ⟨o, hmem, rfl, rfl⟩
    · rintro ⟨o', _, ho, rfl⟩
      rw [Option.some.inj ho]

theorem negate_eq_error_iff (c : Clause) (e : Error) :
    c.negate = .error e ↔ ∃ o ∈ Operator.joining, e = .uninvertible o ∧
      ((∃ l r, c = .binary l o r) ∨ ∃ p d, c = .unary p d (some o)) := by
  cases c with
  | binary l o r =>
    rw [negate_binary_eq_error]
    constructor
    · rintro ⟨ho, he⟩
      exact ⟨o, ho, he, Or.inl ⟨l, r, rfl⟩⟩
    · rintro ⟨p, hp, he, ⟨_, _, hc⟩ | ⟨_, _, hc⟩⟩ <;> cases hc
      exact ⟨hp, he⟩
  | unary p d m =>
    rw [negate_unary_eq_error]
    constructor
    · rintro ⟨o, ho, rfl, he⟩
      exact ⟨o, ho, he, Or.inr ⟨p, d, rfl⟩⟩
    · rintro ⟨o, ho, he, ⟨_, _, hc⟩ | ⟨_, _, hc⟩⟩ <;> cases hc
      exact ⟨o, ho, rfl, he⟩
  | _ =>
    -- Every other clause goes under a NOT.
    constructor
    · intro h
      cases h
    · rintro ⟨_, _, _, ⟨_, _, hc⟩ | ⟨_, _, hc⟩⟩ <;> cases hc

/--
Negation makes the complement in Kleene's logic, so that what is unknown stays unknown, and it
refuses exactly the comparisons by AND, OR, NOT, ASC or DESC and the clauses with one of these as
their modifier, naming the operator.
-/
theorem negate_complements (c : Clause) :
    (∀ d, c.negate = .ok d → ∀ (Row Value : Type) (I : Meaning Row Value) (row : Row),
      I.truth row d = (I.truth row c).not) ∧
    ∀ e, c.negate = .error e ↔
      ∃ o ∈ [Operator.and, .or, .not, .asc, .desc], e = .uninvertible o ∧
        ((∃ l r, c = .binary l o r) ∨ ∃ p d, c = .unary p d (some o)) :=
  ⟨fun d h _ _ I row => truth_of_negate I row c d h, negate_eq_error_iff c⟩

/-- Comparison of integers, unknown beside null. -/
def comparedIntegers (f : Int → Int → Bool) : Option Int → Option Int → Kleene
  | some x, some y => .ofBool (f x y)
  | _, _ => .unknown

theorem comparedIntegers_not (f g : Int → Int → Bool) (h : ∀ x y, g x y = !f x y)
    (x y : Option Int) : comparedIntegers g x y = (comparedIntegers f x y).not := by
  cases x <;> cases y <;> simp only [comparedIntegers, Kleene.not, h, Kleene.ofBool_not]

/-- Rows of integers under the usual operators; `IS` alone tells null from what is not null. -/
def integerMeaning : Meaning (String → Option Int) Int where
  operand row
    | .column c => row c.name
    | .bind _ (.int n) => some n.toInt
    | _ => none
  holds
    | .eq => comparedIntegers fun x y => x == y
    | .ne => comparedIntegers fun x y => x != y
    | .like => comparedIntegers fun x y => x == y
    | .notLike => comparedIntegers fun x y => x != y
    | .lt => comparedIntegers fun x y => decide (x < y)
    | .ge => comparedIntegers fun x y => decide (y ≤ x)
    | .le => comparedIntegers fun x y => decide (x ≤ y)
    | .gt => comparedIntegers fun x y => decide (y < x)
    | .is => fun x y => .ofBool (x == y)
    | .isNot => fun x y => .ofBool (x != y)
    | _ => fun _ _ => .unknown
  other _ _ := .unknown
  complementary := by
    intro pair hpair x y
    simp only [Operator.inversePairs, List.mem_cons, List.not_mem_nil, or_false] at hpair
    rcases hpair with rfl | rfl | rfl | rfl | rfl
    · exact comparedIntegers_not _ _ (fun _ _ => rfl) x y
    · exact Kleene.ofBool_not (x == y)
    · refine comparedIntegers_not (fun x y => decide (x < y)) _ (fun x y => ?_) x y
      rw [← decide_not, decide_eq_decide]
      omega
    · refine comparedIntegers_not (fun x y => decide (x ≤ y)) _ (fun x y => ?_) x y
      rw [← decide_not, decide_eq_decide]
      omega
    · exact comparedIntegers_not _ _ (fun _ _ => rfl) x y

/-- No row has a score from an empty list, every row has one that is not from it; and where there
is no score, a score above five is unknown and so is one that is not. -/
theorem negate_complements_noScore :
    ((ColumnRef.within { name := "score" } []).negate = .ok (.binary .null .is .null) ∧
      integerMeaning.truth (fun _ => none) (.binary .null .is .null)
        = (integerMeaning.truth (fun _ => none) (ColumnRef.within { name := "score" } [])).not ∧
      integerMeaning.truth (fun _ => none) (.binary .null .is .null) = .yes) ∧
    ((ColumnRef.compare { name := "score" } .gt (.value (.int 5))).negate
        = .ok (ColumnRef.compare { name := "score" } .le (.value (.int 5))) ∧
      integerMeaning.truth (fun _ => none)
          (ColumnRef.compare { name := "score" } .le (.value (.int 5)))
        = (integerMeaning.truth (fun _ => none)
          (ColumnRef.compare { name := "score" } .gt (.value (.int 5)))).not ∧
      integerMeaning.truth (fun _ => none)
        (ColumnRef.compare { name := "score" } .gt (.value (.int 5))) = .unknown) ∧
    (ColumnRef.descending { name := "score" }).negate = .error (.uninvertible .desc) :=
  ⟨⟨rfl, (negate_complements _).1 _ rfl _ _ integerMeaning _, by decide⟩,
    ⟨rfl, (negate_complements _).1 _ rfl _ _ integerMeaning _, by decide⟩,
    ((negate_complements _).2 _).mpr ⟨.desc, by decide, rfl, Or.inr ⟨none, _, rfl⟩⟩⟩

end Clause

end BoundSql
