import BoundSql.Proofs.Clause.Sites
import BoundSql.Proofs.Condition.Grammar

/-!
# Conditions as they read

A rendered condition is a text of tokens in which every comparison is an atom. Where no NOT stands
directly before a conjunction, these tokens read as a formula that has the comparisons of the
clause as its atoms, and the truth value of the clause whatever the truth of the comparisons.
-/

namespace BoundSql

open Condition

namespace Operator

def connective? : Operator → Option Connective
  | .and => some .and
  | .or => some .or
  | _ => none

def comparisons : List Operator :=
  [.eq, .ne, .is, .isNot, .lt, .le, .gt, .ge, .like, .notLike]

end Operator

namespace Clause

/-- A column, a value to be bound, or null. -/
def isOperand : Clause → Bool
  | column _ => true
  | bind .. => true
  | null => true
  | _ => false

/-! ### Tokens -/

def parenthesized (ts : List (Token Clause)) : List (Token Clause) :=
  .opening :: ts ++ [.closing]

/-- Texts of tokens with a token between them. -/
def joined (t : Token Clause) : List (List (Token Clause)) → List (Token Clause)
  | [] => []
  | [ts] => ts
  | ts :: tss => ts ++ t :: joined t tss

mutual
/-- The tokens of a clause as a condition; what is not made of conditions is an atom. -/
def tokens : Clause → List (Token Clause)
  | junction o cs =>
    match o.connective? with
    | some k => joined k.token (memberTokens cs)
    | none => [.atom (junction o cs)]
  | group c => if c.isGroup then tokens c else parenthesized (tokens c)
  | unary o c m => if o = some .not ∧ m = none then .not :: tokens c else [.atom (unary o c m)]
  | c => [.atom c]

def memberTokens : List Clause → List (List (Token Clause))
  | [] => []
  | c :: cs => (if c.isJunction then parenthesized (tokens c) else tokens c) :: memberTokens cs
end

mutual
/-- The comparisons that a condition is made of, from left to right. -/
def comparisons : Clause → List Clause
  | junction o cs =>
    match o.connective? with
    | some _ => comparisonsOfAll cs
    | none => [junction o cs]
  | group c => comparisons c
  | unary o c m => if o = some .not ∧ m = none then comparisons c else [unary o c m]
  | c => [c]

def comparisonsOfAll : List Clause → List Clause
  | [] => []
  | c :: cs => comparisons c ++ comparisonsOfAll cs
end

theorem comparisonsOfAll_eq_flatMap (cs : List Clause) :
    comparisonsOfAll cs = cs.flatMap comparisons := by
  induction cs with
  | nil => rfl
  | cons c cs ih => rw [comparisonsOfAll, ih, List.flatMap_cons]

mutual
/-- The truth value of a condition when its first comparison is the one numbered `n`. -/
def truthFrom (v : Nat → Clause → Bool) (n : Nat) : Clause → Bool
  | junction o cs =>
    match o.connective? with
    | some k => truthOfAllFrom v k n cs
    | none => v n (junction o cs)
  | group c => truthFrom v n c
  | unary o c m => if o = some .not ∧ m = none then !truthFrom v n c else v n (unary o c m)
  | c => v n c

def truthOfAllFrom (v : Nat → Clause → Bool) (k : Connective) (n : Nat) : List Clause → Bool
  | [] => k.unit
  | c :: cs => k.value (truthFrom v n c) (truthOfAllFrom v k (n + (comparisons c).length) cs)
end

/-- The truth value of a condition when its `n`-th comparison from the left, counted from 0, has
the value `v n`. -/
def truth (v : Nat → Clause → Bool) (c : Clause) : Bool := truthFrom v 0 c

/-- The tokens of a member of a conjunction: another conjunction in parentheses. -/
def tokensAsMember (c : Clause) : List (Token Clause) :=
  if c.isJunction then parenthesized (tokens c) else tokens c

theorem memberTokens_eq_map (cs : List Clause) : memberTokens cs = cs.map tokensAsMember := by
  induction cs with
  | nil => rfl
  | cons c cs ih => rw [memberTokens, ih, List.map_cons, tokensAsMember]

theorem joined_cons (t : Token Clause) (ts : List (Token Clause))
    (tss : List (List (Token Clause))) :
    joined t (ts :: tss) = ts ++ tss.flatMap (t :: ·) := by
  induction tss generalizing ts with
  | nil => simp only [joined, List.flatMap_nil, List.append_nil]
  | cons us uss ih => simp only [joined, ih us, List.flatMap_cons, List.cons_append]

end Clause

/-! ### Texts -/

namespace Condition.Token

def template (q : Quoting) : Token Clause → Template
  | .atom c => c.template q
  | .and => [.text " AND "]
  | .or => [.text " OR "]
  | .not => [.text "NOT "]
  | .opening => [.text "("]
  | .closing => [.text ")"]

/-- The text that a token is rendered as, after some names have been handed out. -/
def Spells (q : Quoting) (t : Token Clause) (text : String) : Prop :=
  ∃ b b' texts, Template.fill b (t.template q) = .ok (texts, b') ∧ text = String.join texts

theorem spells_of_fill (q : Quoting) (b b' : Binder) (ts : List (Token Clause))
    (texts : List String)
    (h : Template.fill b (ts.flatMap (template q)) = .ok (texts, b')) :
    ∃ spelled, List.Forall₂ (Spells q) ts spelled ∧ String.join texts = String.join spelled := by
  induction ts generalizing b texts with
  | nil =>
    simp only [List.flatMap_nil, Template.fill, Except.ok.injEq, Prod.mk.injEq] at h
    exact ⟨[], .nil, by rw [← h.1]⟩
  | cons t ts ih =>
    rw [List.flatMap_cons] at h
    obtain ⟨first, c, rest, hfirst, hrest, htexts⟩ := Template.fill_append_ok b b' _ _ texts h
    obtain ⟨spelled, hspelled, hjoin⟩ := ih c rest hrest
    refine ⟨String.join first :: spelled, .cons ⟨b, c, first, hfirst, rfl⟩ hspelled, ?_⟩
    rw [htexts, String.join_append, String.join_cons, hjoin]

theorem template_parenthesized (q : Quoting) (ts : List (Token Clause)) :
    (Clause.parenthesized ts).flatMap (template q)
      = Template.parenthesized (ts.flatMap (template q)) := by
  simp only [Clause.parenthesized, Template.parenthesized, List.flatMap_append, List.flatMap_cons,
    List.flatMap_nil, template, List.cons_append, List.nil_append]

theorem template_joined (q : Quoting) (o : Operator) (k : Connective)
    (h : o.connective? = some k) (tss : List (List (Token Clause))) :
    (Clause.joined k.token tss).flatMap (template q)
      = Template.join (" " ++ o.symbol ++ " ") (tss.map (·.flatMap (template q))) := by
  have htoken : template q k.token = [.text (" " ++ o.symbol ++ " ")] := by
    cases o <;> cases h <;> rfl
  induction tss with
  | nil => rfl
  | cons ts tss ih =>
    cases tss with
    | nil => rfl
    | cons us uss =>
      simp only [Clause.joined, List.flatMap_append, List.flatMap_cons, htoken, ih]
      rfl

end Condition.Token

namespace Clause

/-- A clause that can be rendered is rendered token by token. -/
theorem template_tokens (q : Quoting) (c : Clause) (h : (c.template q).Whole) :
    c.template q = c.tokens.flatMap (Token.template q) := by
  induction c using Clause.induct with
  | group c ih =>
    simp only [template, tokens] at h ⊢
    split at h
    · next hg => simp only [hg, ite_true, ih h]
    · next hg =>
      rw [Template.whole_parenthesized] at h
      simp only [hg, Bool.false_eq_true, ite_false, Token.template_parenthesized, ← ih h]
  | unary o c m ih =>
    by_cases hnot : o = some .not ∧ m = none
    · simp only [template, Template.whole_append] at h
      simp only [tokens, hnot, and_self, ite_true, List.flatMap_cons, ← ih h.1.2]
      simp only [template, operatorText, modifierText, List.append_nil]
      rfl
    · simp only [tokens, hnot, ite_false, List.flatMap_cons, List.flatMap_nil, List.append_nil]
      rfl
  | junction o cs ih =>
    cases hk : o.connective? with
    | none =>
      simp only [tokens, hk, List.flatMap_cons, List.flatMap_nil, List.append_nil]
      rfl
    | some k =>
      by_cases hcs : cs.isEmpty
      · simp only [template, hcs, ite_true] at h
        exact absurd h (Template.not_whole_refuse _ [])
      · simp only [template, hcs, Bool.false_eq_true, ite_false, memberTemplates_eq_map,
          Template.whole_join] at h
        simp only [template, tokens, hk, hcs, Bool.false_eq_true, ite_false,
          memberTemplates_eq_map, memberTokens_eq_map, Token.template_joined q o k hk,
          List.map_map]
        refine congrArg (Template.join _) (List.map_congr_left fun c hc => ?_)
        have hc' := ih c hc ((whole_memberTemplate q c).mp (h _ (List.mem_map_of_mem hc)))
        rw [Function.comp_apply, memberTemplate, tokensAsMember]
        split
        · rw [Token.template_parenthesized, ← hc']
        · exact hc'
  | _ => exact (List.append_nil _).symm

/-! ### Readings -/

/-- A comparison of operands, or membership of an operand in a list of them. -/
inductive Comparison : Clause → Prop
  | operands (l r : Clause) (o : Operator) (hl : l.isOperand = true) (hr : r.isOperand = true)
    (ho : o ∈ Operator.comparisons) : Comparison (.binary l o r)
  | listed (l : Clause) (cs : List Clause) (hl : l.isOperand = true)
    (hcs : ∀ c ∈ cs, c.isOperand = true) :
    Comparison (.binary l .within (.group (.sequence cs ",")))

theorem comparisons_of_comparison (c : Clause) (hc : c.Comparison) : c.comparisons = [c] := by
  cases hc <;> rfl

/-- A condition made of comparisons, conjunctions, parentheses and NOTs, none of which stands
directly before a conjunction. -/
inductive Readable : Clause → Prop
  | comparison (c : Clause) (h : c.Comparison) : Readable c
  | junction (o : Operator) (cs : List Clause) (ho : o.connective?.isSome)
    (hcs : ∀ c ∈ cs, Readable c) : Readable (.junction o cs)
  | not (c : Clause) (h : Readable c) (hj : c.isJunction = false) :
    Readable (.unary (some .not) c none)
  | group (c : Clause) (h : Readable c) : Readable (.group c)

theorem comparison_of_mem (c : Clause) (hc : Readable c) :
    ∀ a ∈ c.comparisons, a.Comparison := by
  induction hc with
  | comparison c hc =>
    intro a ha
    rw [comparisons_of_comparison c hc, List.mem_singleton] at ha
    rw [ha]
    exact hc
  | junction o cs ho hcs ih =>
    obtain ⟨k, hk⟩ := Option.isSome_iff_exists.mp ho
    intro a ha
    simp only [comparisons, hk, comparisonsOfAll_eq_flatMap] at ha
    obtain ⟨c, hc, hac⟩ := List.mem_flatMap.mp ha
    exact ih c hc a hac
  | not c hc hj ih => exact ih
  | group c hc ih => exact ih

/-- The tokens read, at a level, as a formula that stands for the clause: it has its comparisons
and its truth values. -/
def ReadsAs (l : Level) (ts : List (Token Clause)) (c : Clause) : Prop :=
  ∃ f, Reads l ts f ∧ f.atoms = c.comparisons ∧ ∀ v n, f.valueFrom v n = c.truthFrom v n

/-- Members joined to what is already read, one after the other. -/
theorem reads_members (k : Connective) (ts : List (Token Clause)) (f : Formula Clause)
    (cs : List Clause) (hf : Reads k.level ts f)
    (hcs : ∀ c ∈ cs, ReadsAs .factor (tokensAsMember c) c) :
    ∃ g, Reads k.level (ts ++ (cs.map tokensAsMember).flatMap (k.token :: ·)) g ∧
      g.atoms = f.atoms ++ comparisonsOfAll cs ∧
      ∀ v n, g.valueFrom v n
        = k.value (f.valueFrom v n) (truthOfAllFrom v k (n + f.atoms.length) cs) := by
  -- Conjunctions group to the left, so what is already read grows while the members get fewer.
  induction cs generalizing ts f with
  | nil =>
    refine ⟨f, ?_, ?_, ?_⟩
    · simpa using hf
    · rw [comparisonsOfAll, List.append_nil]
    · intro v n
      rw [truthOfAllFrom, Connective.value_unit]
  | cons c cs ih =>
    obtain ⟨hc, htail⟩ := List.forall_mem_cons.mp hcs
    obtain ⟨fc, hreads, hatoms, hvalue⟩ := hc
    obtain ⟨g, hg, hgatoms, hgvalue⟩ := ih (ts ++ k.token :: tokensAsMember c) (k.join f fc)
      (k.reads_join ts _ f fc hf hreads) htail
    refine ⟨g, ?_, ?_, ?_⟩
    · simpa using hg
    · rw [hgatoms, k.atoms_join, hatoms, comparisonsOfAll, List.append_assoc]
    · intro v n
      rw [hgvalue, k.valueFrom_join, k.atoms_join, List.length_append, hatoms, hvalue,
        k.value_assoc, truthOfAllFrom, Nat.add_assoc]

theorem readsAs_group (ts : List (Token Clause)) (c : Clause) (h : ReadsAs .condition ts c) :
    ReadsAs .factor (parenthesized ts) c := by
  obtain ⟨f, hreads, hatoms, hvalue⟩ := h
  exact ⟨.group f, .group ts f hreads, hatoms, hvalue⟩

theorem readsAs_of_factor (c : Clause) (hj : c.isJunction = false)
    (h : ReadsAs .factor c.tokens c) :
    ReadsAs .condition c.tokens c ∧ ReadsAs .factor (tokensAsMember c) c := by
  obtain ⟨f, hreads, hf⟩ := h
  refine ⟨⟨f, .conjunction _ f (.factor _ f hreads), hf⟩, ?_⟩
  rw [tokensAsMember, hj]
  exact ⟨f, hreads, hf⟩

theorem readsAs_junction (o : Operator) (k : Connective) (hk : o.connective? = some k)
    (c : Clause) (cs : List Clause)
    (h : ∀ d ∈ c :: cs, ReadsAs .factor (tokensAsMember d) d) :
    ReadsAs .condition (tokens (.junction o (c :: cs))) (.junction o (c :: cs)) := by
  obtain ⟨hc, htail⟩ := List.forall_mem_cons.mp h
  obtain ⟨f, hreads, hatoms, hvalue⟩ := hc
  obtain ⟨g, hg, hgatoms, hgvalue⟩ := reads_members k _ f cs (k.reads_of_factor _ f hreads) htail
  refine ⟨g, ?_, ?_, ?_⟩
  · simp only [tokens, hk, memberTokens_eq_map, List.map_cons, joined_cons]
    exact k.reads_condition _ g hg
  · simp only [hgatoms, hatoms, comparisons, hk, comparisonsOfAll]
  · intro v n
    simp only [hgvalue, hatoms, hvalue, truthFrom, hk, truthOfAllFrom]

/-- What is read is what was meant: a condition on its own, and a member of a conjunction. -/
theorem readsAs_tokens (q : Quoting) (c : Clause) (hc : Readable c) (h : (c.template q).Whole) :
    ReadsAs .condition c.tokens c ∧ ReadsAs .factor (tokensAsMember c) c := by
  induction hc with
  | comparison c hc =>
    cases hc <;> exact readsAs_of_factor _ rfl ⟨.atom _, .atom _, rfl, fun v n => rfl⟩
  | junction o cs ho hcs ih =>
    obtain ⟨k, hk⟩ := Option.isSome_iff_exists.mp ho
    cases cs with
    | nil => exact absurd h (Template.not_whole_refuse _ [])
    | cons c cs =>
      simp only [template, List.isEmpty_cons, Bool.false_eq_true, ite_false,
        memberTemplates_eq_map, Template.whole_join] at h
      have hreads := readsAs_junction o k hk c cs fun d hd =>
        (ih d hd ((whole_memberTemplate q d).mp (h _ (List.mem_map_of_mem hd)))).2
      exact ⟨hreads, readsAs_group _ _ hreads⟩
  | not c hc hj ih =>
    simp only [template, Template.whole_append] at h
    obtain ⟨f, hreads, hatoms, hvalue⟩ := (ih h.1.2).2
    rw [tokensAsMember, hj] at hreads
    refine readsAs_of_factor _ rfl ⟨.not f, ?_, ?_, ?_⟩
    · exact .not _ f hreads
    · exact hatoms
    · intro v n
      exact congrArg not (hvalue v n)
  | group c hc ih =>
    refine readsAs_of_factor _ rfl ?_
    simp only [template] at h
    split at h
    · next hg =>
      have hj : c.isJunction = false := by cases c <;> first | rfl | cases hg
      obtain ⟨f, hreads, hf⟩ := (ih h).2
      rw [tokensAsMember, hj] at hreads
      simp only [tokens, hg, ite_true]
      exact ⟨f, hreads, hf⟩
    · next hg =>
      rw [Template.whole_parenthesized] at h
      simp only [tokens, hg, Bool.false_eq_true]
      exact readsAs_group _ c (ih h).1

end Clause

end BoundSql
