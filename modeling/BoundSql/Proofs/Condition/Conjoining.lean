import BoundSql.Proofs.Clause.Filtering
import BoundSql.Proofs.Condition.Negation
import BoundSql.Proofs.Condition.Reading

/-!
# The condition of a statement

Conditions given to a statement one after the other are stored as one condition, which is true just
where all of them are, and has their comparisons and their sites in the order in which they were
given. From the second one on it is an AND list, in which no conjunction stands bare as long as the
conditions were made by the builders.
-/

namespace BoundSql

namespace Clause

theorem exists_conjoinAll (c : Clause) (cs : List Clause) :
    ∃ stored, conjoinAll (some c) cs = some stored := by
  induction cs generalizing c with
  | nil => exact ⟨c, rfl⟩
  | cons d cs ih => exact ih (conjoin (some c) d)

/-- From the second condition on there is an AND list, which begins with the members of the first
condition or with that condition itself. -/
theorem exists_members (c d : Clause) (cs : List Clause) :
    ∃ members, conjoinAll none (c :: d :: cs)
        = some (.junction .and (members ++ (d :: cs).map asMember)) ∧
      (c = .junction .and members ∨
        (∀ listed, c ≠ .junction .and listed) ∧ members = [c.asMember]) := by
  by_cases hc : ∃ members, c = .junction .and members
  · obtain ⟨members, rfl⟩ := hc
    exact ⟨members, conjoinAll_junction members (d :: cs), Or.inl rfl⟩
  · have hother := not_exists.mp hc
    exact ⟨[c.asMember], conjoinAll_pair c d cs hother, Or.inr ⟨hother, rfl⟩⟩

/-! ### Truth -/

theorem comparisons_asMember (c : Clause) : c.asMember.comparisons = c.comparisons := by
  cases c <;> rfl

theorem truthFrom_asMember (v : Nat → Clause → Bool) (n : Nat) (c : Clause) :
    truthFrom v n c.asMember = truthFrom v n c := by
  cases c <;> rfl

theorem comparisons_and (cs : List Clause) :
    comparisons (.junction .and cs) = cs.flatMap comparisons :=
  comparisonsOfAll_eq_flatMap cs

theorem truthOfAllFrom_cons (v : Nat → Clause → Bool) (n : Nat) (c : Clause) (cs : List Clause) :
    truthOfAllFrom v .and n (c :: cs)
      = (truthFrom v n c && truthOfAllFrom v .and (n + c.comparisons.length) cs) := rfl

theorem truthOfAllFrom_append (v : Nat → Clause → Bool) (n : Nat) (cs ds : List Clause) :
    truthOfAllFrom v .and n (cs ++ ds)
      = (truthOfAllFrom v .and n cs
        && truthOfAllFrom v .and (n + (cs.flatMap comparisons).length) ds) := by
  induction cs generalizing n with
  | nil => rfl
  | cons c cs ih =>
    rw [List.cons_append, truthOfAllFrom_cons, truthOfAllFrom_cons, ih, List.flatMap_cons,
      List.length_append, Nat.add_assoc, Bool.and_assoc]

theorem truthOfAllFrom_singleton (v : Nat → Clause → Bool) (n : Nat) (c : Clause) :
    truthOfAllFrom v .and n [c] = truthFrom v n c := Bool.and_true _

theorem truthOfAllFrom_iff (v : Nat → Clause → Bool) (n : Nat) (cs : List Clause) :
    truthOfAllFrom v .and n cs = true ↔ ∀ before c after, cs = before ++ c :: after →
      truthFrom v (n + (before.flatMap comparisons).length) c = true := by
  induction cs generalizing n with
  | nil => exact iff_of_true rfl (by simp)
  | cons d cs ih =>
    rw [truthOfAllFrom_cons, Bool.and_eq_true, ih]
    constructor
    · rintro ⟨hd, hcs⟩ before c after he
      cases before with
      | nil =>
        obtain ⟨rfl, rfl⟩ := List.cons.inj he
        exact hd
      | cons b before =>
        obtain ⟨rfl, rfl⟩ := List.cons.inj he
        rw [List.flatMap_cons, List.length_append, ← Nat.add_assoc]
        exact hcs before c after rfl
    · intro h
      refine ⟨h [] d cs rfl, fun before c after he => ?_⟩
      have hc := h (d :: before) c after (congrArg (d :: ·) he)
      rwa [List.flatMap_cons, List.length_append, ← Nat.add_assoc] at hc

theorem comparisons_conjoinAll (condition : Option Clause) (cs : List Clause) :
    (conjoinAll condition cs).toList.flatMap comparisons
      = (condition.toList ++ cs).flatMap comparisons :=
  flatMap_conjoinAll comparisons comparisons_asMember comparisons_and condition cs

theorem comparisons_conjoin (c d : Clause) :
    (conjoin (some c) d).comparisons = c.comparisons ++ d.comparisons := by
  simpa [conjoinAll] using comparisons_conjoinAll (some c) [d]

theorem truthFrom_conjoin (v : Nat → Clause → Bool) (n : Nat) (c d : Clause) :
    truthFrom v n (conjoin (some c) d)
      = (truthFrom v n c && truthFrom v (n + c.comparisons.length) d) := by
  obtain ⟨members, hpair, hmembers⟩ := exists_members c d []
  have hboth : truthFrom v n (conjoin (some c) d)
      = truthOfAllFrom v .and n (members ++ [d.asMember]) :=
    congrArg (truthFrom v n) (Option.some.inj hpair)
  -- The members of the first condition count as that condition does.
  have hfirst : truthOfAllFrom v .and n members = truthFrom v n c
      ∧ members.flatMap comparisons = c.comparisons := by
    obtain rfl | ⟨_, rfl⟩ := hmembers
    · exact ⟨rfl, (comparisons_and members).symm⟩
    · rw [truthOfAllFrom_singleton, truthFrom_asMember, List.flatMap_singleton,
        comparisons_asMember]
      exact ⟨rfl, rfl⟩
  rw [hboth, truthOfAllFrom_append, truthOfAllFrom_singleton, truthFrom_asMember, hfirst.1,
    hfirst.2]

theorem truthFrom_of_conjoinAll (v : Nat → Clause → Bool) (n : Nat) (c stored : Clause)
    (cs : List Clause) (h : conjoinAll (some c) cs = some stored) :
    truthFrom v n stored = truthOfAllFrom v .and n (c :: cs) := by
  induction cs generalizing c with
  | nil =>
    obtain rfl := Option.some.inj h
    exact (truthOfAllFrom_singleton v n c).symm
  | cons d cs ih =>
    rw [ih (conjoin (some c) d) h]
    simp only [truthOfAllFrom_cons, truthFrom_conjoin, comparisons_conjoin, List.length_append,
      Nat.add_assoc, Bool.and_assoc]

/-! ### Members -/

theorem isJunction_asMember (c : Clause) : c.asMember.isJunction = false := by
  cases c <;> rfl

/-- What the builders make: a condition that is no list and no NOT, as a comparison, a column or
anything in parentheses; a list of any conditions; and the negation of what they make. -/
inductive Made : Clause → Prop
  | operand (c : Clause) (hjunction : c.isJunction = false)
    (hnot : ∀ e, c ≠ .unary (some .not) e none) : Made c
  | joinedBy (o : Operator) (cs : List Clause) : Made (joinedBy o cs)
  | negate (c d : Clause) (hc : Made c) (h : c.negate = .ok d) : Made d

/-- No conjunction stands bare in the one that is there under any number of NOTs. -/
inductive Tidy : Clause → Prop
  | junction (o : Operator) (cs : List Clause) (h : ∀ c ∈ cs, c.isJunction = false) :
    Tidy (.junction o cs)
  | negated (c : Clause) (h : Tidy c) : Tidy c.negated
  | other (c : Clause) (hjunction : c.isJunction = false)
    (hnot : ∀ e, c ≠ .unary (some .not) e none) : Tidy c

theorem tidy_negate (c d : Clause) (hc : Tidy c) (h : c.negate = .ok d) : Tidy d := by
  obtain ⟨l, o, p, r, rfl, _, rfl⟩ | ⟨e, rfl, rfl⟩ | ⟨_, rfl⟩ := negate_cases c d h
  · exact .other _ rfl nofun
  · cases hc with
    | negated c hc => exact hc
    | other _ _ hnot => exact absurd rfl (hnot e)
  · exact .negated c hc

theorem tidy_of_made (c : Clause) (hc : Made c) : Tidy c := by
  induction hc with
  | operand c hjunction hnot => exact .other c hjunction hnot
  | joinedBy o cs =>
    refine .junction o _ fun d hd => ?_
    obtain ⟨c, _, rfl⟩ := List.mem_map.mp hd
    exact isJunction_asMember c
  | negate c d _ h ih => exact tidy_negate c d ih h

theorem members_of_made (o : Operator) (cs : List Clause) (h : Made (.junction o cs)) :
    ∀ c ∈ cs, c.isJunction = false := by
  cases tidy_of_made _ h with
  | junction _ _ hcs => exact hcs
  | other _ hjunction _ => cases hjunction

/-- In the AND list of some conditions a list stands bare just if one does in a first AND list. -/
theorem members_bare_iff (c : Clause) (members cs : List Clause)
    (h : c = .junction .and members ∨
      (∀ listed, c ≠ .junction .and listed) ∧ members = [c.asMember]) :
    (∀ m ∈ members ++ cs.map asMember, m.isJunction = false) ↔
      ∀ listed, c = .junction .and listed → ∀ m ∈ listed, m.isJunction = false := by
  have hrest : ∀ m ∈ cs.map asMember, m.isJunction = false :=
    List.forall_mem_map.mpr fun d _ => isJunction_asMember d
  rw [List.forall_mem_append, and_iff_left hrest]
  obtain rfl | ⟨hother, rfl⟩ := h
  · constructor
    · rintro hmembers _ he
      cases he
      exact hmembers
    · exact fun hfirst => hfirst members rfl
  · refine iff_of_true ?_ fun listed he => absurd he (hother listed)
    exact List.forall_mem_singleton.mpr (isJunction_asMember c)

end Clause

namespace Filtered

/--
Conditions given to a statement without one become its condition, and nothing else of the statement
changes. Whatever the truth of the comparisons, the stored condition is true just if each one of
those given is, and its comparisons and its sites are theirs, in the order in which they were given.
Several conditions are stored as one AND list. A list stands bare in it just if the first condition
is an AND list with a bare list, which builders do not make.
-/
theorem whereAll_conjoins (x : Filtered) (cs : List Clause) (hx : x.condition = none)
    (hcs : cs ≠ []) :
    ∃ stored, x.whereAll cs = x.withCondition (some stored) ∧
      stored.comparisons = cs.flatMap Clause.comparisons ∧
      (∀ v, stored.truth v = true ↔ ∀ before c after, cs = before ++ c :: after →
        c.truthFrom v (before.flatMap Clause.comparisons).length = true) ∧
      stored.sites = cs.flatMap Clause.sites ∧
      (2 ≤ cs.length → ∃ members, stored = .junction .and members ∧
        ((∀ m ∈ members, m.isJunction = false) ↔
          ∀ listed, cs.head? = some (.junction .and listed) → ∀ m ∈ listed, m.isJunction = false) ∧
        ((∀ c ∈ cs, c.Made) → ∀ m ∈ members, m.isJunction = false)) := by
  obtain ⟨c, rest, rfl⟩ := List.exists_cons_of_ne_nil hcs
  obtain ⟨stored, hstored⟩ := Clause.exists_conjoinAll c rest
  have hcomparisons := Clause.comparisons_conjoinAll (some c) rest
  have hsites := Clause.sites_conjoinAll (some c) rest
  rw [hstored, Option.toList_some, List.flatMap_singleton] at hcomparisons hsites
  refine ⟨stored, ?_, hcomparisons, fun v => ?_, hsites, fun hlong => ?_⟩
  · rw [whereAll_eq, hx]
    exact congrArg x.withCondition hstored
  · have htruth := Clause.truthOfAllFrom_iff v 0 (c :: rest)
    rw [← Clause.truthFrom_of_conjoinAll v 0 c stored rest hstored] at htruth
    simpa only [Nat.zero_add, Clause.truth] using htruth
  · cases rest with
    | nil => exact absurd hlong (by simp)
    | cons d rest =>
      obtain ⟨members, hmembers, hfirst⟩ := Clause.exists_members c d rest
      have hlist := Option.some.inj (hstored.symm.trans hmembers)
      have hbare := Clause.members_bare_iff c members (d :: rest) hfirst
      refine ⟨_, hlist, ?_, fun hmade => hbare.mpr fun listed he => ?_⟩
      · simpa only [List.head?_cons, Option.some.injEq] using hbare
      · exact Clause.members_of_made .and listed (he ▸ hmade c List.mem_cons_self)

def idAbove (n : Int64) : Clause := ColumnRef.compare { name := "id" } .gt (.value (.int n))

/-- An AND list that is the first condition takes in the others, the OR list in parentheses. -/
def idsAbove : List Clause :=
  [.allOf [idAbove 1, idAbove 2], .anyOf [idAbove 3, idAbove 4], idAbove 5]

theorem whereAll_conjoins_idsAbove :
    let stored : Clause := .junction .and
      [idAbove 1, idAbove 2, .group (.anyOf [idAbove 3, idAbove 4]), idAbove 5]
    deleteGames.condition = none ∧ idsAbove ≠ [] ∧
      deleteGames.whereAll idsAbove = deleteGames.withCondition (some stored) ∧
      stored.sites = idsAbove.flatMap Clause.sites ∧
      (∀ v, stored.truth v = true ↔ ∀ before c after, idsAbove = before ++ c :: after →
        c.truthFrom v (before.flatMap Clause.comparisons).length = true) ∧
      stored.truth (fun n _ => n != 2) = true ∧
      (∀ c ∈ idsAbove, c.Made) ∧
      ∃ members, stored = .junction .and members ∧ ∀ m ∈ members, m.isJunction = false := by
  intro stored
  have hnonempty : idsAbove ≠ [] := by simp [idsAbove]
  have hmade : ∀ c ∈ idsAbove, c.Made := by
    simp only [idsAbove, List.forall_mem_cons]
    exact ⟨.joinedBy .and _, .joinedBy .or _, .operand _ rfl nofun, nofun⟩
  have hwhere : deleteGames.whereAll idsAbove = deleteGames.withCondition (some stored) := rfl
  obtain ⟨d, hd, _, htruth, hsites, hlist⟩ :=
    whereAll_conjoins deleteGames idsAbove rfl hnonempty
  have hstored : stored = d :=
    Option.some.inj (congrArg condition (hwhere.symm.trans hd))
  obtain ⟨members, hmembers, _, hflat⟩ := hlist (by decide)
  rw [hstored]
  exact ⟨rfl, hnonempty, hd, hsites, htruth, hstored ▸ rfl, hmade, members, hmembers, hflat hmade⟩

end Filtered

end BoundSql
