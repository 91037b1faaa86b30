import BoundSql.Proofs.Clause.Failure
import BoundSql.Proofs.Rearranging

/-!
# Conditions given one after the other

The first condition of a statement is kept as it is and later ones join it by AND. Where the first
one is itself an AND list, the later ones become its members, so that a first AND list without
members is gone as soon as a second condition is given. That is the only one to get lost: all other
conditions are rendered, and what they fail with, the statement fails with.
-/

namespace BoundSql

namespace Clause

/-! ### Accumulated conditions -/

def conjoinAll (condition : Option Clause) (cs : List Clause) : Option Clause :=
  cs.foldl (fun condition c => some (conjoin condition c)) condition

def isEmptyAnd : Clause → Bool
  | junction .and [] => true
  | _ => false

/-- The conditions that are rendered: a first AND list without members is lost to the next one. -/
def kept : List Clause → List Clause
  | c :: d :: cs => if c.isEmptyAnd then d :: cs else c :: d :: cs
  | cs => cs

theorem conjoinAll_junction (members cs : List Clause) :
    conjoinAll (some (junction .and members)) cs
      = some (junction .and (members ++ cs.map asMember)) := by
  induction cs generalizing members with
  | nil => simp [conjoinAll]
  | cons c cs ih =>
    have hnext := ih (members ++ [c.asMember])
    rw [List.append_assoc] at hnext
    exact hnext

/-- What is collected from the members of a conjunction is collected from conditions in turn. -/
theorem flatMap_conjoinAll {α : Type} (f : Clause → List α)
    (hmember : ∀ c : Clause, f c.asMember = f c)
    (hand : ∀ cs, f (.junction .and cs) = cs.flatMap f) (condition : Option Clause)
    (cs : List Clause) :
    (conjoinAll condition cs).toList.flatMap f = (condition.toList ++ cs).flatMap f := by
  have hconjoin : ∀ (condition : Option Clause) (c : Clause),
      f (conjoin condition c) = condition.toList.flatMap f ++ f c := by
    intro condition c
    unfold conjoin
    split <;> simp [allOf, joinedBy, hmember, hand]
  induction cs generalizing condition with
  | nil => rw [List.append_nil]; rfl
  | cons c cs ih =>
    refine (ih (some (conjoin condition c))).trans ?_
    simp [hconjoin]

theorem sites_conjoinAll (condition : Option Clause) (cs : List Clause) :
    (conjoinAll condition cs).toList.flatMap sites = (condition.toList ++ cs).flatMap sites :=
  flatMap_conjoinAll sites (fun c => by cases c <;> rfl) sitesOfAll_eq_flatMap condition cs

/-- A first condition other than an AND list is put into one with the second. -/
theorem conjoinAll_pair (c d : Clause) (cs : List Clause)
    (h : ∀ members, c ≠ junction .and members) :
    conjoinAll none (c :: d :: cs) = some (allOf (c :: d :: cs)) := by
  have hpair : conjoin (some c) d = junction .and [c.asMember, d.asMember] := by
    unfold conjoin
    split
    · next hnone => cases hnone
    · next members hc => exact absurd (Option.some.inj hc) (h members)
    · next hc => rw [Option.some.inj hc]; rfl
  have hall := conjoinAll_junction [c.asMember, d.asMember] cs
  rw [← hpair] at hall
  exact hall

theorem acts_asMember (q : Quoting) (c : Clause) :
    Template.acts (c.asMember.template q) = Template.acts (c.template q) := by
  cases c with
  | junction o cs => exact acts_group q (.junction o cs)
  | _ => rfl

theorem acts_members (q : Quoting) (cs : List Clause) :
    (cs.map asMember).flatMap (fun c => Template.acts (c.template q))
      = cs.flatMap fun c => Template.acts (c.template q) := by
  rw [List.flatMap_map]
  exact List.flatMap_congr fun c _ => acts_asMember q c

theorem acts_junction (q : Quoting) (o : Operator) (c : Clause) (cs : List Clause) :
    Template.acts ((junction o (c :: cs)).template q)
      = (c :: cs).flatMap fun c => Template.acts (c.template q) :=
  acts_template q (junction o (c :: cs))

theorem acts_allOf (q : Quoting) (cs : List Clause) (h : cs ≠ []) :
    Template.acts ((allOf cs).template q) = cs.flatMap fun c => Template.acts (c.template q) := by
  cases cs with
  | nil => exact absurd rfl h
  | cons c cs =>
    rw [allOf, joinedBy, List.map_cons, acts_junction, ← List.map_cons, acts_members]

theorem acts_conjoinAll (q : Quoting) (cs : List Clause) :
    Template.acts (whereTemplate q (conjoinAll none cs))
      = (kept cs).flatMap fun c => Template.acts (c.template q) := by
  rw [acts_whereTemplate]
  match cs with
  | [] => rfl
  | [c] => rfl
  | c :: d :: cs =>
    -- An AND list takes the later conditions, and its own members may be none.
    by_cases hc : ∃ members, c = junction .and members
    · obtain ⟨members, rfl⟩ := hc
      have hall : conjoinAll none (junction .and members :: d :: cs)
          = some (junction .and (members ++ (d :: cs).map asMember)) :=
        conjoinAll_junction members (d :: cs)
      rw [hall, Option.toList_some, List.flatMap_cons, List.flatMap_nil, List.append_nil]
      cases members with
      | nil =>
        rw [List.nil_append, List.map_cons, acts_junction, ← List.map_cons, acts_members]
        rfl
      | cons m ms =>
        rw [List.cons_append, acts_junction, ← List.cons_append, List.flatMap_append,
          acts_members, ← acts_junction q .and]
        rfl
    · have hother : ∀ members, c ≠ junction .and members := not_exists.mp hc
      have hkept : kept (c :: d :: cs) = c :: d :: cs := by
        have hempty : c.isEmptyAnd = false := by
          unfold isEmptyAnd
          split
          · exact absurd rfl (hother [])
          · rfl
        rw [kept, hempty]
        rfl
      rw [conjoinAll_pair c d cs hother, hkept, Option.toList_some, List.flatMap_cons,
        List.flatMap_nil, List.append_nil, acts_allOf q _ (List.cons_ne_nil c _)]

theorem kept_ne_nil (cs : List Clause) (h : cs ≠ []) : kept cs ≠ [] := by
  match cs with
  | [] => exact h
  | [c] => exact h
  | c :: d :: cs =>
    rw [kept]
    split
    · exact List.cons_ne_nil d cs
    · exact List.cons_ne_nil c (d :: cs)

/-! ### Runs of one clause -/

theorem compile_fails_iff (q : Quoting) (c : Clause) :
    (∃ e, c.compile q = .error e) ↔ ∀ b, Template.run {} (c.template q) ≠ .ok b := by
  simp only [compile_eq_error_iff_run]
  cases Template.run {} (c.template q) <;> simp

theorem claim_of_mem_acts (q : Quoting) (c : Clause) (h : c.assigns = false) :
    ∀ p ∈ Template.acts (c.template q), p.claim? = none := by
  intro p hp
  rw [acts_nodes] at hp
  obtain ⟨d, hd, hpd⟩ := List.mem_flatMap.mp hp
  exact claim_of_not_isAssignment q d (isAssignment_of_mem_nodes c h d hd) p hpd

end Clause

/-! ### Statements with a condition -/

/-- A statement that takes conditions. -/
inductive Filtered where
  | select (s : Select)
  | update (u : Update)
  | delete (d : Delete)

namespace Filtered

def toClause : Filtered → Clause
  | select s => s.toClause
  | update u => u.toClause
  | delete d => d.toClause

def condition : Filtered → Option Clause
  | select s => s.condition
  | update u => u.condition
  | delete d => d.condition

def «where» : Filtered → Clause → Filtered
  | select s, c => select (s.where c)
  | update u, c => update (u.where c)
  | delete d, c => delete (d.where c)

def whereAll (x : Filtered) (cs : List Clause) : Filtered := cs.foldl «where» x

/-- What stands before the condition. -/
def head (q : Quoting) : Filtered → Template
  | select s =>
    .text (if s.distinct then "SELECT DISTINCT " else "SELECT ")
      :: Clause.columnsTemplate q s.columns ++ Clause.fromsTemplate q s.columns s.froms
  | update u => updateTemplate q u.table u.values
  | delete d => [.text ("DELETE FROM " ++ q.quote d.table.name)]

/-- What stands after the condition. -/
def tail (q : Quoting) : Filtered → Template
  | select s => Clause.orderTemplate q s.order ++ [.text (limitText s.limit s.offset)]
  | update _ => []
  | delete _ => []

theorem template_toClause (q : Quoting) (x : Filtered) :
    x.toClause.template q
      = x.head q ++ Clause.whereTemplate q x.condition ++ x.tail q := by
  cases x with
  | select s =>
    rw [toClause, Select.toClause, Clause.template_select]
    simp only [head, condition, tail, List.cons_append, List.append_assoc]
  | update u =>
    rw [toClause, Update.toClause, Clause.template_update, tail, List.append_nil]
    rfl
  | delete d =>
    rw [toClause, Delete.toClause, Clause.template_delete, tail, List.append_nil]
    rfl

@[simp] theorem condition_where (x : Filtered) (c : Clause) :
    (x.where c).condition = some (Clause.conjoin x.condition c) := by
  cases x <;> rfl

@[simp] theorem head_where (q : Quoting) (x : Filtered) (c : Clause) :
    (x.where c).head q = x.head q := by
  cases x <;> rfl

@[simp] theorem tail_where (q : Quoting) (x : Filtered) (c : Clause) :
    (x.where c).tail q = x.tail q := by
  cases x <;> rfl

/-- The statement with that condition, or with none, and all else as it is. -/
def withCondition (condition : Option Clause) : Filtered → Filtered
  | select s => select { s with condition := condition }
  | update u => update { u with condition := condition }
  | delete d => delete { d with condition := condition }

theorem whereAll_eq (x : Filtered) (cs : List Clause) :
    x.whereAll cs = x.withCondition (Clause.conjoinAll x.condition cs) := by
  induction cs generalizing x with
  | nil => cases x <;> rfl
  | cons c cs ih =>
    refine (ih (x.where c)).trans ?_
    rw [condition_where]
    cases x <;> rfl

theorem whereAll_parts (q : Quoting) (x : Filtered) (cs : List Clause) :
    (x.whereAll cs).condition = Clause.conjoinAll x.condition cs ∧
      (x.whereAll cs).head q = x.head q ∧ (x.whereAll cs).tail q = x.tail q := by
  rw [whereAll_eq]
  cases x <;> exact ⟨rfl, rfl, rfl⟩

/-! ### Rendering -/

theorem run_toClause (q : Quoting) (b : Binder) (x : Filtered) :
    Template.run b (x.toClause.template q)
      = ((Template.run b (x.head q)).bind fun b =>
          Template.run b (Template.acts (Clause.whereTemplate q x.condition))).bind fun b =>
            Template.run b (x.tail q) := by
  rw [template_toClause, Template.run_append, Template.run_append]
  simp only [Template.run_acts]

theorem run_whereAll (q : Quoting) (b : Binder) (x : Filtered) (cs : List Clause)
    (hx : x.condition = none) :
    Template.run b ((x.whereAll cs).toClause.template q)
      = ((Template.run b (x.head q)).bind fun b =>
          Template.run b ((Clause.kept cs).flatMap fun c => Template.acts (c.template q))).bind
            fun b => Template.run b (x.tail q) := by
  obtain ⟨hcondition, hhead, htail⟩ := x.whereAll_parts q cs
  rw [run_toClause, hcondition, hhead, htail, hx, Clause.acts_conjoinAll]

theorem run_where_allOf (q : Quoting) (b : Binder) (x : Filtered) (cs : List Clause)
    (hx : x.condition = none) (hcs : cs ≠ []) :
    Template.run b ((x.where (.allOf cs)).toClause.template q)
      = ((Template.run b (x.head q)).bind fun b =>
          Template.run b (cs.flatMap fun c => Template.acts (c.template q))).bind
            fun b => Template.run b (x.tail q) := by
  rw [run_toClause, condition_where, head_where, tail_where, hx, Clause.conjoin,
    Clause.acts_whereTemplate, Option.toList_some, List.flatMap_cons, List.flatMap_nil,
    List.append_nil, Clause.acts_allOf q cs hcs]

theorem fails_of_refuse (q : Quoting) (x : Filtered) (cs : List Clause) (hx : x.condition = none)
    (c : Clause) (hc : c ∈ Clause.kept cs) (cause : Error)
    (hcause : .refuse cause ∈ c.template q) :
    ∃ e, (x.whereAll cs).toClause.compile q = .error e := by
  rw [Clause.compile_fails_iff]
  intro b hrun
  have hact : .refuse cause ∈
      Template.acts (Clause.whereTemplate q (x.whereAll cs).condition) := by
    obtain ⟨hcondition, _, _⟩ := x.whereAll_parts q cs
    rw [hcondition, hx, Clause.acts_conjoinAll]
    exact List.mem_flatMap.mpr ⟨c, hc, List.mem_filter.mpr ⟨hcause, rfl⟩⟩
  have hmem : .refuse cause ∈ (x.whereAll cs).toClause.template q := by
    rw [template_toClause]
    exact List.mem_append_left _ (List.mem_append_right _ (List.mem_of_mem_filter hact))
  exact Template.refuse_not_mem_of_run_ok {} b _ cause hrun hmem

theorem fails_of_perm (q : Quoting) (x : Filtered) (cs ds : List Clause)
    (hx : x.condition = none) (hperm : (Clause.kept cs).Perm (Clause.kept ds))
    (hassigns : ∀ c ∈ Clause.kept cs, c.assigns = false) :
    (∃ e, (x.whereAll ds).toClause.compile q = .error e) →
      ∃ e, (x.whereAll cs).toClause.compile q = .error e := by
  rw [Clause.compile_fails_iff, Clause.compile_fails_iff, run_whereAll q {} x cs hx,
    run_whereAll q {} x ds hx]
  intro hfails b hb
  have hacts : ∀ p ∈ (Clause.kept cs).flatMap fun c => Template.acts (c.template q),
      p.claim? = none := by
    intro p hp
    obtain ⟨c, hc, hpc⟩ := List.mem_flatMap.mp hp
    exact Clause.claim_of_mem_acts q c (hassigns c hc) p hpc
  have hmiddle := fun b : Binder =>
    Template.run_perm b _ _ (hperm.flatMap_right fun c => Template.acts (c.template q)) hacts
  have hhead : Binder.Follows (Template.run {} (x.head q)) (Template.run {} (x.head q)) :=
    Template.run_alike _ _ _ (.refl _)
  have hboth := hhead.bind fun c c' hc => (hmiddle c).trans (Template.run_alike c c' _ hc)
  have hall := hboth.bind fun c c' hc => Template.run_alike c c' (x.tail q) hc
  obtain ⟨b', hb', _⟩ := hall b hb
  exact hfails b' hb'

/--
A statement fails with what all its conditions in one AND list fail with, except that a first AND
list without members is lost to the condition after it. So a rendered condition that fails for want
of members makes the statement fail, and the order of the rendered conditions does not decide
whether it does. Conditions that change tables are left out there, since these claim names.
-/
theorem compile_whereAll_fails (q : Quoting) (x : Filtered) (hx : x.condition = none) :
    (∀ cs, cs ≠ [] → ∀ e,
      (x.whereAll cs).toClause.compile q = .error e ↔
        (x.where (.allOf (Clause.kept cs))).toClause.compile q = .error e) ∧
    (∀ cs, ∀ c ∈ Clause.kept cs, ∀ part, c.compile q = .error (.empty part) →
      ∃ e, (x.whereAll cs).toClause.compile q = .error e) ∧
    ∀ cs ds, (Clause.kept cs).Perm (Clause.kept ds) →
      (∀ c ∈ Clause.kept cs, c.assigns = false) →
      ((∃ e, (x.whereAll cs).toClause.compile q = .error e) ↔
        ∃ e, (x.whereAll ds).toClause.compile q = .error e) := by
  refine ⟨?_, ?_, ?_⟩
  · intro cs hcs e
    have hkept := Clause.kept_ne_nil cs hcs
    rw [Clause.compile_eq_error_iff_run, Clause.compile_eq_error_iff_run,
      run_whereAll q {} x cs hx, run_where_allOf q {} x (Clause.kept cs) hx hkept]
  · intro cs c hc part hfails
    rw [Clause.compile_eq_error_iff_run] at hfails
    have hrefuse := Template.refuse_mem_of_run_error {} _ _ hfails (by simp)
    exact fails_of_refuse q x cs hx c hc _ hrefuse
  · intro cs ds hperm hassigns
    have hassigns' : ∀ c ∈ Clause.kept ds, c.assigns = false :=
      fun c hc => hassigns c (hperm.mem_iff.mpr hc)
    constructor
    · exact fails_of_perm q x ds cs hx hperm.symm hassigns'
    · exact fails_of_perm q x cs ds hx hperm hassigns

def deleteGames : Filtered := .delete ⟨⟨"games", [⟨"id", .integer, {}⟩]⟩, none⟩

def firstGame : Clause := ColumnRef.compare { name := "id" } .eq (.value (.int 1))

theorem compile_whereAll_fails_deleteGames :
    deleteGames.condition = none ∧
    (∀ e, (deleteGames.whereAll [.allOf [], .anyOf []]).toClause.compile .plain = .error e ↔
      (deleteGames.where (.allOf [.anyOf []])).toClause.compile .plain = .error e) ∧
    ((Clause.allOf []).compile .plain = .error (.empty .andList) ∧
      ∃ e, (deleteGames.whereAll [firstGame, .allOf []]).toClause.compile .plain = .error e) ∧
    ((∃ e, (deleteGames.whereAll [firstGame, .allOf []]).toClause.compile .plain = .error e) ↔
      ∃ e, (deleteGames.whereAll [.allOf [], .allOf [], firstGame]).toClause.compile .plain
        = .error e) := by
  have hnone : deleteGames.condition = none := rfl
  obtain ⟨hall, hrendered, horder⟩ := compile_whereAll_fails .plain deleteGames hnone
  have hempty : (Clause.allOf []).compile .plain = .error (.empty .andList) := rfl
  have hmem : Clause.allOf [] ∈ Clause.kept [firstGame, .allOf []] :=
    List.mem_cons_of_mem _ (List.mem_cons_self ..)
  have hassigns : ∀ c ∈ Clause.kept [firstGame, .allOf []], c.assigns = false := by
    intro c hc
    rcases List.mem_cons.mp hc with rfl | hc
    · rfl
    · rw [List.mem_singleton.mp hc]
      rfl
  refine ⟨hnone, hall [.allOf [], .anyOf []] (by simp),
    ⟨hempty, hrendered _ _ hmem _ hempty⟩, ?_⟩
  exact horder _ [.allOf [], .allOf [], firstGame] (List.Perm.swap ..) hassigns

/-- A first AND list without members fails alone and after another condition, but not before one:
the games with the identifier 1 are deleted. -/
theorem compile_deleteGames_masked :
    (Clause.allOf []).compile .plain = .error (.empty .andList) ∧
    (deleteGames.whereAll [.allOf [], firstGame]).toClause.compile .plain
      = .ok ⟨"DELETE FROM games WHERE id = :id_1", ⟨[("id_1", .int 1)]⟩⟩ ∧
    (deleteGames.whereAll [firstGame, .allOf []]).toClause.compile .plain
      = .error (.empty .andList) := by
  have hmasked : (deleteGames.whereAll [.allOf [], firstGame]).toClause
      = .delete ⟨"games", [⟨"id", .integer, {}⟩]⟩ (some (.junction .and [firstGame])) := rfl
  refine ⟨rfl, ?_, rfl⟩
  rw [hmasked]
  rfl

end Filtered

end BoundSql
