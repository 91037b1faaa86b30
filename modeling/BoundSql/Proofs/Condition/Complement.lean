import BoundSql.Clause.Condition
import BoundSql.Proofs.Condition.Appending
import BoundSql.Proofs.Condition.Negation
import BoundSql.Proofs.Condition.Reading

/-!
# Negation as it reads

The SQL of a negated condition reads as the complement of the SQL of the condition, whatever the
nesting, with one exception. A NOT is written before its operand without parentheses, so that
before a conjunction it reads as the NOT of the first factor; negation takes the NOT away, which
leaves the complement of that factor but not of the condition.
-/

namespace BoundSql

open Condition

/-! ### Truth of comparisons -/

namespace Condition

/-- Truth values of comparisons by position, in which inverse operators are complementary. -/
def Complementary (v : Nat → Clause → Bool) : Prop :=
  ∀ n l r o p, o.inverse? = some p → v n (.binary l p r) = !v n (.binary l o r)

/-- Every comparison is true that is not by the second operator of an inverse pair, or every one
that is. -/
def oneSided (b : Bool) (_ : Nat) : Clause → Bool
  | .binary _ o _ => if o ∈ [.ne, .isNot, .ge, .gt, .notLike] then !b else b
  | _ => b

theorem complementary_oneSided (b : Bool) : Complementary (oneSided b) := by
  intro n l r o p h
  cases o <;> cases h <;> cases b <;> rfl

theorem exists_oneSided (n : Nat) (c : Clause) (b : Bool) : ∃ side, oneSided side n c = b := by
  cases c with
  | binary l o r =>
    by_cases ho : o ∈ [.ne, .isNot, .ge, .gt, .notLike]
    · refine ⟨!b, ?_⟩
      rw [oneSided, if_pos ho, Bool.not_not]
    · refine ⟨b, ?_⟩
      rw [oneSided, if_neg ho]
  | _ => exact ⟨b, rfl⟩

/-- One assignment of truth values below a position, and another one from there on. -/
def splice (m : Nat) (v w : Nat → Clause → Bool) (n : Nat) : Clause → Bool :=
  if n < m then v n else w n

theorem complementary_splice (m : Nat) (v w : Nat → Clause → Bool) (hv : Complementary v)
    (hw : Complementary w) : Complementary (splice m v w) := by
  intro n l r o p h
  unfold splice
  split
  · exact hv n l r o p h
  · exact hw n l r o p h

namespace Formula

theorem agree_parts (v w : Nat → Clause → Bool) (f g : Formula Clause) (n : Nat)
    (h : ∀ i < (f.atoms ++ g.atoms).length, v (n + i) = w (n + i)) :
    (∀ i < f.atoms.length, v (n + i) = w (n + i)) ∧
      ∀ i < g.atoms.length, v (n + f.atoms.length + i) = w (n + f.atoms.length + i) := by
  rw [List.length_append] at h
  constructor
  · intro i hi
    exact h i (by omega)
  · intro i hi
    rw [Nat.add_assoc]
    exact h (f.atoms.length + i) (by omega)

theorem valueFrom_congr (v w : Nat → Clause → Bool) (f : Formula Clause) (n : Nat)
    (h : ∀ i < f.atoms.length, v (n + i) = w (n + i)) : f.valueFrom v n = f.valueFrom w n := by
  induction f generalizing n with
  | atom a => exact congrFun (h 0 Nat.one_pos) a
  | not f ih => exact congrArg Bool.not (ih n h)
  | group f ih => exact ih n h
  | and f g ihf ihg =>
    obtain ⟨hf, hg⟩ := agree_parts v w f g n h
    rw [valueFrom, valueFrom, ihf n hf, ihg _ hg]
  | or f g ihf ihg =>
    obtain ⟨hf, hg⟩ := agree_parts v w f g n h
    rw [valueFrom, valueFrom, ihf n hf, ihg _ hg]

/-- Two formulas beside each other take any two values together. -/
theorem exists_pair (f g : Formula Clause) (n : Nat) (a b : Bool)
    (hf : ∃ v, Complementary v ∧ f.valueFrom v n = a)
    (hg : ∃ v, Complementary v ∧ g.valueFrom v (n + f.atoms.length) = b) :
    ∃ v, Complementary v ∧ f.valueFrom v n = a ∧ g.valueFrom v (n + f.atoms.length) = b := by
  obtain ⟨v, hv, rfl⟩ := hf
  obtain ⟨w, hw, rfl⟩ := hg
  refine ⟨splice (n + f.atoms.length) v w, complementary_splice _ v w hv hw, ?_, ?_⟩
  · apply valueFrom_congr
    intro i hi
    have hbelow : n + i < n + f.atoms.length := by omega
    exact if_pos hbelow
  · apply valueFrom_congr
    intro i hi
    have hfrom : ¬ n + f.atoms.length + i < n + f.atoms.length := by omega
    exact if_neg hfrom

theorem exists_valueFrom (f : Formula Clause) (n : Nat) (b : Bool) :
    ∃ v, Complementary v ∧ f.valueFrom v n = b := by
  induction f generalizing n b with
  | atom a =>
    obtain ⟨side, hside⟩ := exists_oneSided n a b
    exact ⟨oneSided side, complementary_oneSided side, hside⟩
  | not f ih =>
    obtain ⟨v, hv, hvalue⟩ := ih n (!b)
    refine ⟨v, hv, ?_⟩
    rw [valueFrom, hvalue, Bool.not_not]
  | group f ih => exact ih n b
  | and f g ihf ihg =>
    obtain ⟨v, hv, hf, hg⟩ := exists_pair f g n b b (ihf n b) (ihg _ b)
    refine ⟨v, hv, ?_⟩
    rw [valueFrom, hf, hg, Bool.and_self]
  | or f g ihf ihg =>
    obtain ⟨v, hv, hf, hg⟩ := exists_pair f g n b b (ihf n b) (ihg _ b)
    refine ⟨v, hv, ?_⟩
    rw [valueFrom, hf, hg, Bool.or_self]

/-- A NOT in front of an AND or an OR makes no difference where the last part decides. -/
theorem exists_negateFirst_eq (f : Formula Clause) (h : f.isJoined = true) :
    ∃ v, Complementary v ∧ f.negateFirst.value v = f.value v := by
  cases f with
  | and f g =>
    obtain ⟨v, hv, hg⟩ := exists_valueFrom g (0 + f.atoms.length) false
    refine ⟨v, hv, ?_⟩
    simp only [value, negateFirst, valueFrom, atoms_negateFirst, hg, Bool.and_false]
  | or f g =>
    obtain ⟨v, hv, hg⟩ := exists_valueFrom g (0 + f.atoms.length) true
    refine ⟨v, hv, ?_⟩
    simp only [value, negateFirst, valueFrom, atoms_negateFirst, hg, Bool.or_true]
  | _ => cases h

end Formula

end Condition

namespace Clause

/-! ### Boolean trees -/

/-- A tree of comparisons, conjunctions, NOTs and parentheses in any nesting. -/
inductive Boolean : Clause → Prop
  | comparison (l r : Clause) (o : Operator) (hl : l.isOperand = true) (hr : r.isOperand = true)
    (ho : o.isUninvertible = false) : Boolean (.binary l o r)
  | junction (o : Operator) (cs : List Clause) (ho : o.connective?.isSome)
    (hcs : ∀ c ∈ cs, Boolean c) : Boolean (.junction o cs)
  | not (c : Clause) (h : Boolean c) : Boolean (.unary (some .not) c none)
  | group (c : Clause) (h : Boolean c) : Boolean (.group c)

/-- Written as a conjunction of several members without parentheses around it. -/
inductive Loose : Clause → Prop
  | several (o : Operator) (c d : Clause) (cs : List Clause) : Loose (.junction o (c :: d :: cs))
  | single (o : Operator) (c : Clause) (h : Loose c) (hj : c.isJunction = false) :
    Loose (.junction o [c])
  | not (c : Clause) (h : Loose c) : Loose (.unary (some .not) c none)

/-- The tokens read as a condition, and as one factor unless the clause is loose. -/
def ReadsTight (ts : List (Token Clause)) (c : Clause) : Prop :=
  (Loose c → ReadsJoined .condition ts) ∧ (¬ Loose c → ∃ f, Reads .factor ts f)

theorem ReadsTight.reads (ts : List (Token Clause)) (c : Clause) (h : ReadsTight ts c) :
    ∃ f, Reads .condition ts f := by
  by_cases hc : Loose c
  · obtain ⟨f, hf, _⟩ := h.1 hc
    exact ⟨f, hf⟩
  · obtain ⟨f, hf⟩ := h.2 hc
    exact ⟨f, .conjunction ts f (.factor ts f hf)⟩

theorem readsTight_of_factor (ts : List (Token Clause)) (c : Clause) (hc : ¬ Loose c)
    (h : ∃ f, Reads .factor ts f) : ReadsTight ts c :=
  ⟨fun hloose => absurd hloose hc, fun _ => h⟩

theorem reads_parenthesized (ts : List (Token Clause)) (h : ∃ f, Reads .condition ts f) :
    ∃ f, Reads .factor (parenthesized ts) f := by
  obtain ⟨f, hf⟩ := h
  exact ⟨.group f, .group ts f hf⟩

theorem reads_tokensAsMember (c : Clause) (h : ReadsTight c.tokens c) :
    ∃ f, Reads .condition (tokensAsMember c) f := by
  unfold tokensAsMember
  split
  · obtain ⟨f, hf⟩ := reads_parenthesized c.tokens h.reads
    exact ⟨f, .conjunction _ f (.factor _ f hf)⟩
  · exact h.reads

theorem readsJoined_members (k : Connective) (ts : List (Token Clause)) (f : Formula Clause)
    (c : Clause) (cs : List Clause) (hf : Reads .condition ts f)
    (h : ∀ d ∈ c :: cs, ReadsTight d.tokens d) :
    ReadsJoined .condition (ts ++ ((c :: cs).map tokensAsMember).flatMap (k.token :: ·)) := by
  induction cs generalizing ts f c with
  | nil =>
    obtain ⟨g, hg⟩ := reads_tokensAsMember c (h c (List.mem_cons_self ..))
    have hjoined := readsJoined_append k ts _ f g hf hg
    simpa using hjoined
  | cons d cs ih =>
    obtain ⟨g, hg⟩ := reads_tokensAsMember c (h c (List.mem_cons_self ..))
    obtain ⟨f', hf', _⟩ := readsJoined_append k ts _ f g hf hg
    have hrest := ih _ f' d hf' fun e he => h e (List.mem_cons_of_mem _ he)
    simpa using hrest

theorem readsTight_tokens (q : Quoting) (c : Clause) (hc : Boolean c)
    (h : (c.template q).Whole) : ReadsTight c.tokens c := by
  induction hc with
  | comparison l r o hl hr ho =>
    exact readsTight_of_factor _ _ (by rintro ⟨⟩) ⟨_, .atom _⟩
  | not c hc ih =>
    simp only [template, Template.whole_append] at h
    have htight := ih h.1.2
    have htokens : tokens (.unary (some .not) c none) = .not :: c.tokens := by
      simp only [tokens, and_self, ite_true]
    rw [htokens]
    constructor
    · rintro ⟨⟩
      next hloose =>
        obtain ⟨f, hf, hjoined⟩ := htight.1 hloose
        exact ⟨f.negateFirst, reads_not _ _ f hf, (f.isJoined_negateFirst).trans hjoined⟩
    · intro hnot
      obtain ⟨f, hf⟩ := htight.2 fun hloose => hnot (.not c hloose)
      exact ⟨.not f, .not _ f hf⟩
  | group c hc ih =>
    refine readsTight_of_factor _ _ (by rintro ⟨⟩) ?_
    simp only [template] at h
    split at h
    · next hg =>
      have hloose : ¬ Loose c := by
        rintro ⟨⟩ <;> cases hg
      simp only [tokens, hg, ite_true]
      exact (ih h).2 hloose
    · next hg =>
      rw [Template.whole_parenthesized] at h
      simp only [tokens, hg]
      exact reads_parenthesized _ (ih h).reads
  | junction o cs ho hcs ih =>
    obtain ⟨k, hk⟩ := Option.isSome_iff_exists.mp ho
    cases cs with
    | nil => exact absurd h (Template.not_whole_refuse _ [])
    | cons c cs =>
      -- Only a conjunction gets parentheses as a member, so that a NOT before one is joined bare.
      simp only [template, List.isEmpty_cons, Bool.false_eq_true, ite_false,
        memberTemplates_eq_map, Template.whole_join] at h
      have hmembers : ∀ d ∈ c :: cs, ReadsTight d.tokens d := fun d hd =>
        ih d hd ((whole_memberTemplate q d).mp (h _ (List.mem_map_of_mem hd)))
      have htokens : tokens (.junction o (c :: cs))
          = tokensAsMember c ++ (cs.map tokensAsMember).flatMap (k.token :: ·) := by
        simp only [tokens, hk, memberTokens_eq_map, List.map_cons, joined_cons]
      rw [htokens]
      have hc := hmembers c (List.mem_cons_self ..)
      cases cs with
      | nil =>
        rw [List.map_nil, List.flatMap_nil, List.append_nil, tokensAsMember]
        by_cases hj : c.isJunction = true
        · rw [if_pos hj]
          refine readsTight_of_factor _ _ ?_ (reads_parenthesized _ hc.reads)
          rintro ⟨⟩
          next hj' => exact absurd hj (by rw [hj']; exact Bool.false_ne_true)
        · rw [if_neg hj]
          have hj' : c.isJunction = false := by simpa using hj
          constructor
          · rintro ⟨⟩
            next hloose _ => exact hc.1 hloose
          · exact fun hnot => hc.2 fun hloose => hnot (.single o c hloose hj')
      | cons d cs =>
        obtain ⟨f, hf⟩ := reads_tokensAsMember c hc
        have hjoined := readsJoined_members k _ f d cs hf fun e he =>
          hmembers e (List.mem_cons_of_mem _ he)
        exact ⟨fun _ => hjoined, fun hnot => absurd (.several o c d cs) hnot⟩

/-! ### Negation -/

theorem boolean_underNot (c : Clause) (hc : Boolean c) : Boolean c.underNot := by
  cases hc with
  | group c hc => exact hc
  | comparison l r o hl hr ho => exact .comparison l r o hl hr ho
  | junction o cs ho hcs => exact .junction o cs ho hcs
  | not c hc => exact .not c hc

theorem boolean_negate (c d : Clause) (hc : Boolean c) (h : c.negate = .ok d) :
    Boolean d ∧
      ((∃ l r o p, c = .binary l o r ∧ o.inverse? = some p ∧ d = .binary l p r) ∨
        (∃ e, Boolean e ∧ c = .unary (some .not) e none ∧ d = e.underNot) ∨
        (d = c.negated ∧ ∀ e, c ≠ .unary (some .not) e none)) := by
  obtain ⟨l, o, p, r, rfl, hp, rfl⟩ | ⟨e, rfl, rfl⟩ | ⟨hnot, rfl⟩ := negate_cases c d h
  · cases hc with
    | comparison l r o hl hr ho =>
      have hfree := o.isUninvertible_inverse p hp
      exact ⟨.comparison l r p hl hr hfree, Or.inl ⟨l, r, o, p, rfl, hp, rfl⟩⟩
  · cases hc with
    | not e he => exact ⟨boolean_underNot e he, Or.inr (Or.inl ⟨e, he, rfl, rfl⟩)⟩
  · exact ⟨.not _ (.group _ hc), Or.inr (Or.inr ⟨rfl, hnot⟩)⟩

theorem reads_binary (l r : Clause) (o : Operator) :
    Reads .condition (tokens (.binary l o r)) (.atom (.binary l o r)) := by
  have hatom : Reads .factor [Token.atom (binary l o r)] (.atom (binary l o r)) := .atom _
  exact .conjunction _ _ (.factor _ _ hatom)

theorem reads_group (c : Clause) (f : Formula Clause) (h : ReadsTight c.tokens c)
    (hf : Reads .condition c.tokens f) :
    ∃ g, Reads .factor (tokens (.group c)) g ∧ ∀ v, g.value v = f.value v := by
  by_cases hg : c.isGroup = true
  · have hloose : ¬ Loose c := by
      rintro ⟨⟩ <;> cases hg
    obtain ⟨g, hfactor⟩ := h.2 hloose
    have hsame : g = f := Reads.unique _ g f (.conjunction _ g (.factor _ g hfactor)) hf
    refine ⟨g, ?_, fun v => by rw [hsame]⟩
    simp only [tokens, hg, ite_true]
    exact hfactor
  · refine ⟨.group f, ?_, fun v => rfl⟩
    simp only [tokens, hg]
    exact .group _ f hf

theorem tokens_not (c : Clause) : tokens (.unary (some .not) c none) = .not :: c.tokens := by
  simp only [tokens, and_self, ite_true]

theorem value_of_negated (c : Clause) (f g : Formula Clause) (h : ReadsTight c.tokens c)
    (hf : Reads .condition c.tokens f) (hg : Reads .condition c.negated.tokens g)
    (v : Nat → Clause → Bool) : g.value v = !f.value v := by
  obtain ⟨f', hfactor, hvalue⟩ := reads_group c f h hf
  have hnot : Reads .condition c.negated.tokens (.not f') := by
    rw [negated, tokens_not]
    exact .conjunction _ _ (.factor _ _ (.not _ f' hfactor))
  rw [Reads.unique _ g _ hg hnot, ← hvalue v]
  rfl

/-- What stands under a NOT has the truth of its operand, with or without the parentheses. -/
theorem value_of_underNot (c : Clause) (f g : Formula Clause)
    (h : ReadsTight c.underNot.tokens c.underNot) (hf : Reads .condition c.tokens f)
    (hg : Reads .condition c.underNot.tokens g) (v : Nat → Clause → Bool) :
    g.value v = f.value v := by
  cases c with
  | group d =>
    obtain ⟨f', hfactor, hvalue⟩ := reads_group d g h hg
    rw [Reads.unique _ f f' hf (.conjunction _ _ (.factor _ _ hfactor)), hvalue v]
  | _ => rw [Reads.unique _ f g hf hg]

theorem underNot_of_loose (c : Clause) (h : Loose c) : c.underNot = c := by
  cases h <;> rfl

/-- Taking a NOT away makes the complement just if the operand is not loose. -/
theorem complement_of_not (e : Clause) (f g : Formula Clause) (he : ReadsTight e.tokens e)
    (hd : ReadsTight e.underNot.tokens e.underNot)
    (hf : Reads .condition (tokens (.unary (some .not) e none)) f)
    (hg : Reads .condition e.underNot.tokens g) :
    (∀ v, Complementary v → g.value v = !f.value v) ↔ ¬ Loose e := by
  rw [tokens_not] at hf
  constructor
  · intro hcomplement hloose
    obtain ⟨fe, hfe, hjoined⟩ := he.1 hloose
    rw [underNot_of_loose e hloose] at hg
    have hf' : f = fe.negateFirst := Reads.unique _ _ _ hf (reads_not _ _ fe hfe)
    have hg' : g = fe := Reads.unique _ _ _ hg hfe
    obtain ⟨v, hv, hsame⟩ := fe.exists_negateFirst_eq hjoined
    have hvalue := hcomplement v hv
    rw [hf', hg', hsame] at hvalue
    cases hb : fe.value v <;> rw [hb] at hvalue <;> cases hvalue
  · intro hloose v _
    obtain ⟨fe, hfe⟩ := he.2 hloose
    have hfe' : Reads .condition e.tokens fe := .conjunction _ fe (.factor _ fe hfe)
    have hf' : f = .not fe :=
      Reads.unique _ _ _ hf (.conjunction _ _ (.factor _ _ (.not _ fe hfe)))
    rw [hf', value_of_underNot e fe g hd hfe' hg v]
    exact (Bool.not_not _).symm

def SpelledAs (q : Quoting) (c : Clause) (sql : String) : Prop :=
  ∃ texts, List.Forall₂ (Token.Spells q) c.tokens texts ∧ sql = String.join texts

theorem spelledAs_of_compile (q : Quoting) (c : Clause) (s : Statement) (h : c.compile q = .ok s) :
    (c.template q).Whole ∧ SpelledAs q c s.sql := by
  obtain ⟨texts, b, hfill, hsql, _⟩ := compile_ok q c s h
  have hwhole := Template.whole_of_fill_ok {} _ _ hfill
  rw [template_tokens q c hwhole] at hfill
  obtain ⟨spelled, hspelled, hjoin⟩ := Token.spells_of_fill q {} b c.tokens texts hfill
  exact ⟨hwhole, spelled, hspelled, hsql.trans hjoin⟩

theorem existsUnique_reads (ts : List (Token Clause)) (h : ∃ f, Reads .condition ts f) :
    ∃! f, Reads .condition ts f := by
  obtain ⟨f, hf⟩ := h
  exact ⟨f, hf, fun g hg => Reads.unique _ g f hg hf⟩

/--
A Boolean tree and its negation that render are texts of tokens that read as exactly one formula
each. Whatever the truth of the comparisons, as long as inverse operators are complementary, the
second formula is the complement of the first one: just if the tree is not a NOT before a loose
operand.
-/
theorem compile_negation_complements (q : Quoting) (c d : Clause) (s t : Statement)
    (hc : Boolean c) (hd : c.negate = .ok d) (hs : c.compile q = .ok s)
    (ht : d.compile q = .ok t) :
    SpelledAs q c s.sql ∧ SpelledAs q d t.sql ∧
    (∃! f, Reads .condition c.tokens f) ∧ (∃! g, Reads .condition d.tokens g) ∧
    ∀ f g, Reads .condition c.tokens f → Reads .condition d.tokens g →
      ((∀ v, Complementary v → g.value v = !f.value v) ↔
        ¬ ∃ e, c = .unary (some .not) e none ∧ Loose e) := by
  obtain ⟨hcwhole, hcspelled⟩ := spelledAs_of_compile q c s hs
  obtain ⟨hdwhole, hdspelled⟩ := spelledAs_of_compile q d t ht
  obtain ⟨hdboolean, hcases⟩ := boolean_negate c d hc hd
  have hctight := readsTight_tokens q c hc hcwhole
  have hdtight := readsTight_tokens q d hdboolean hdwhole
  refine ⟨hcspelled, hdspelled, existsUnique_reads _ hctight.reads,
    existsUnique_reads _ hdtight.reads, ?_⟩
  intro f g hf hg
  rcases hcases with ⟨l, r, o, p, rfl, hp, rfl⟩ | ⟨e, he, rfl, rfl⟩ | ⟨rfl, hnot⟩
  · refine iff_of_true ?_ (by rintro ⟨e, he, _⟩; cases he)
    intro v hv
    rw [Reads.unique _ f _ hf (reads_binary l r o), Reads.unique _ g _ hg (reads_binary l r p)]
    exact hv 0 l r o p hp
  · simp only [template, Template.whole_append] at hcwhole
    have hetight := readsTight_tokens q e he hcwhole.1.2
    rw [complement_of_not e f g hetight hdtight hf hg]
    simp
  · refine iff_of_true ?_ (by rintro ⟨e, he, _⟩; exact hnot e he)
    intro v _
    exact value_of_negated c f g hctight hf hg v

def firstIsOne : Clause := ColumnRef.compare { name := "a" } .eq (.value (.int 1))

def secondIsTwo : Clause := ColumnRef.compare { name := "b" } .eq (.value (.int 2))

def bothHold : Clause := .allOf [firstIsOne, secondIsTwo]

theorem boolean_bothHold : Boolean bothHold := by
  refine .junction .and _ rfl ?_
  intro c hc
  rcases List.mem_pair.mp hc with rfl | rfl
  · exact .comparison _ _ .eq rfl rfl rfl
  · exact .comparison _ _ .eq rfl rfl rfl

/-- With parentheses after the NOT the negation makes the complement. -/
theorem compile_negation_complements_bothHold :
    Boolean bothHold.negated ∧ bothHold.negated.negate = .ok bothHold ∧
    bothHold.negated.compile .plain
      = .ok ⟨"NOT (a = :a_1 AND b = :b_1)", ⟨[("a_1", .int 1), ("b_1", .int 2)]⟩⟩ ∧
    bothHold.compile .plain
      = .ok ⟨"a = :a_1 AND b = :b_1", ⟨[("a_1", .int 1), ("b_1", .int 2)]⟩⟩ ∧
    ∀ f g, Reads .condition bothHold.negated.tokens f → Reads .condition bothHold.tokens g →
      ∀ v, Complementary v → g.value v = !f.value v := by
  have hboolean : Boolean bothHold.negated := .not _ (.group _ boolean_bothHold)
  refine ⟨hboolean, rfl, rfl, rfl, ?_⟩
  obtain ⟨_, _, _, _, hcomplement⟩ :=
    compile_negation_complements .plain _ bothHold _ _ hboolean rfl rfl rfl
  intro f g hf hg
  apply (hcomplement f g hf hg).mpr
  rintro ⟨e, he, hloose⟩
  cases he
  cases hloose

/-- Without them both the condition and its negation are false in a row that has neither. -/
theorem compile_negation_bare :
    Boolean (.unary (some .not) bothHold none) ∧
    (Clause.unary (some .not) bothHold none).negate = .ok bothHold ∧
    (Clause.unary (some .not) bothHold none).compile .plain
      = .ok ⟨"NOT a = :a_1 AND b = :b_1", ⟨[("a_1", .int 1), ("b_1", .int 2)]⟩⟩ ∧
    bothHold.compile .plain
      = .ok ⟨"a = :a_1 AND b = :b_1", ⟨[("a_1", .int 1), ("b_1", .int 2)]⟩⟩ ∧
    Complementary (oneSided false) ∧
    ∃ f g, Reads .condition (tokens (.unary (some .not) bothHold none)) f ∧
      Reads .condition bothHold.tokens g ∧
      f.value (oneSided false) = false ∧ g.value (oneSided false) = false := by
  have hfirst : Reads .factor [Token.atom firstIsOne] (.atom firstIsOne) := .atom _
  have hsecond : Reads .factor [Token.atom secondIsTwo] (.atom secondIsTwo) := .atom _
  have hbare := Reads.and _ _ _ _ (.factor _ _ (.not _ _ hfirst)) hsecond
  have hboth := Reads.and _ _ _ _ (.factor _ _ hfirst) hsecond
  refine ⟨.not _ boolean_bothHold, rfl, rfl, rfl, complementary_oneSided false, ?_⟩
  exact ⟨_, _, .conjunction _ _ hbare, .conjunction _ _ hboth, rfl, rfl⟩

end Clause

end BoundSql
