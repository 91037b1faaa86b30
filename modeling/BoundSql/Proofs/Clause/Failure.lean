import BoundSql.Clause.Change
import BoundSql.Proofs.Clause.Nodes
import BoundSql.Proofs.Clause.Numbering
import BoundSql.Proofs.Running
import BoundSql.Proofs.Schema.Table

/-!
# Clauses that cannot be rendered

A clause without INSERT and UPDATE renders unless it has a conjunction without members. An INSERT
or an UPDATE that was built step by step renders unless it sets an undeclared column, is given no
values, or has such a conjunction in its condition.
-/

namespace BoundSql

/-- The acts of the columns that a statement sets. -/
def assignmentActs (q : Quoting) (t : Table) (values : Option (List (String × Scalar))) :
    Template :=
  match assignments q t values with
  | .error cause => [.refuse cause]
  | .ok set => set.map (·.2)

namespace Clause

/-- The acts that a clause adds to those of its children. -/
def ownActs (q : Quoting) : Clause → Template
  | junction o [] => [.refuse (emptyJunction o)]
  | bind key v => [.bind key v]
  | insert t values => assignmentActs q t values
  | update t values _ => assignmentActs q t values
  | _ => []

/-! ### Acts of a template -/

theorem acts_texts (set : List Assignment) (f : Assignment → Template)
    (hset : ∀ a ∈ set, a.2.isText = false) (hf : ∀ a, Template.acts (f a) = Template.acts [a.2]) :
    (set.map f).flatMap Template.acts = set.map (·.2) := by
  induction set with
  | nil => rfl
  | cons a set ih =>
    obtain ⟨ha, hset⟩ := List.forall_mem_cons.mp hset
    have hact : Template.acts [a.2] = [a.2] := by simp [Template.acts, ha]
    rw [List.map_cons, List.flatMap_cons, hf, hact, ih hset, List.map_cons,
      List.singleton_append]

theorem isText_of_assignments (q : Quoting) (t : Table)
    (values : Option (List (String × Scalar))) (set : List Assignment)
    (h : assignments q t values = .ok set) : ∀ a ∈ set, a.2.isText = false := by
  intro a ha
  have hsites := sites_of_assignments q t values set h
  have hsite : a.2.site? ∈ (columnSites t values).map some := by
    rw [← hsites]
    exact List.mem_map_of_mem (f := fun a : Assignment => a.2.site?) ha
  obtain ⟨s, _, hs⟩ := List.mem_map.mp hsite
  cases hp : a.2 with
  | text s' => rw [hp] at hs; cases hs
  | _ => rfl

theorem acts_insertTemplate (q : Quoting) (t : Table)
    (values : Option (List (String × Scalar))) :
    Template.acts (insertTemplate q t values) = assignmentActs q t values := by
  unfold insertTemplate assignmentActs
  cases h : assignments q t values with
  | error cause => rfl
  | ok set =>
    simp only [List.cons_append, Template.acts_text_cons, Template.acts_append,
      Template.acts_join, Template.acts_nil, List.append_nil]
    exact acts_texts set _ (isText_of_assignments q t values set h) fun a => rfl

theorem acts_updateTemplate (q : Quoting) (t : Table)
    (values : Option (List (String × Scalar))) :
    Template.acts (updateTemplate q t values) = assignmentActs q t values := by
  unfold updateTemplate assignmentActs
  cases h : assignments q t values with
  | error cause => rfl
  | ok set =>
    simp only [Template.acts_text_cons, Template.acts_join]
    exact acts_texts set _ (isText_of_assignments q t values set h) fun a => rfl

theorem acts_memberTemplate (q : Quoting) (c : Clause) :
    Template.acts (memberTemplate q c) = Template.acts (c.template q) := by
  unfold memberTemplate
  split
  · exact Template.acts_parenthesized _
  · rfl

theorem acts_columnsTemplate (q : Quoting) (columns : List Clause) :
    Template.acts (columnsTemplate q columns)
      = columns.flatMap fun c => Template.acts (c.template q) := by
  cases columns with
  | nil => rfl
  | cons c cs => exact (Template.acts_join ..).trans (List.flatMap_map ..)

theorem acts_fromTemplate (froms : List Template) :
    Template.acts (fromTemplate froms) = froms.flatMap Template.acts := by
  cases froms with
  | nil => rfl
  | cons t ts => exact Template.acts_join ", " (t :: ts)

theorem acts_fromsTemplate (q : Quoting) (columns froms : List Clause) :
    Template.acts (fromsTemplate q columns froms)
      = froms.flatMap fun c => Template.acts (c.template q) := by
  cases froms with
  | nil =>
    -- Owners are written as their names alone.
    rw [fromsTemplate, List.isEmpty_nil, if_pos rfl, acts_fromTemplate, List.flatMap_map]
    exact List.flatMap_eq_nil_iff.mpr fun o _ => rfl
  | cons c cs =>
    have hfroms := acts_fromTemplate ((c :: cs).map (template q))
    rw [List.flatMap_map] at hfroms
    exact hfroms

theorem acts_whereTemplate (q : Quoting) (condition : Option Clause) :
    Template.acts (whereTemplate q condition)
      = condition.toList.flatMap fun c => Template.acts (c.template q) := by
  cases condition with
  | none => rfl
  | some c => simp [whereTemplate]

theorem acts_orderTemplate (q : Quoting) (order : Option (OrderTerms Clause)) :
    Template.acts (orderTemplate q order)
      = (order.elim [] OrderTerms.terms).flatMap fun c => Template.acts (c.template q) := by
  rcases order with _ | ⟨terms, separator⟩
  · rfl
  · cases terms with
    | nil => rfl
    | cons c cs => exact (Template.acts_join separator _).trans (List.flatMap_map ..)

/-- The acts of a template are those of the clause itself and then those of its children, in turn. -/
theorem acts_template (q : Quoting) (c : Clause) :
    Template.acts (c.template q)
      = c.ownActs q ++ c.children.flatMap fun d => Template.acts (d.template q) := by
  cases c with
  | binary l o r => simp [template, ownActs, children]
  | unary o c m =>
    have ho : Template.acts (operatorText o) = [] := by cases o <;> rfl
    have hm : Template.acts (modifierText m) = [] := by cases m <;> rfl
    simp [template, ownActs, children, ho, hm]
  | junction o cs =>
    cases cs with
    | nil => rfl
    | cons c cs =>
      simp only [template, List.isEmpty_cons, Bool.false_eq_true, ite_false,
        memberTemplates_eq_map, Template.acts_join, List.flatMap_map, acts_memberTemplate,
        ownActs, children, List.nil_append]
  | group c =>
    simp only [template, ownActs, children, List.flatMap_cons, List.flatMap_nil,
      List.append_nil, List.nil_append]
    split
    · rfl
    · exact Template.acts_parenthesized _
  | sequence cs separator =>
    simp only [template, templates_eq_map, Template.acts_join, List.flatMap_map, ownActs,
      children, List.nil_append]
  | join l r on outer => simp [template, ownActs, children]
  | select columns froms condition order limit offset distinct =>
    rw [template_select]
    simp only [Template.acts_append, Template.acts_text_cons, acts_columnsTemplate,
      acts_fromsTemplate, acts_whereTemplate, acts_orderTemplate, ownActs, children,
      List.flatMap_append, List.nil_append, List.cons_append, Template.acts_nil,
      List.append_nil]
  | insert t values => simp [template, acts_insertTemplate, ownActs, children]
  | update t values condition =>
    rw [template_update, Template.acts_append, acts_updateTemplate, acts_whereTemplate]
    rfl
  | delete t condition =>
    rw [template_delete, Template.acts_text_cons, acts_whereTemplate]
    rfl
  | _ => rfl

theorem acts_unary (q : Quoting) (o m : Option Operator) (c : Clause) :
    Template.acts ((unary o c m).template q) = Template.acts (c.template q) := by
  rw [acts_template]
  exact List.append_nil _

theorem acts_group (q : Quoting) (c : Clause) :
    Template.acts ((group c).template q) = Template.acts (c.template q) := by
  rw [acts_template]
  exact List.append_nil _

theorem acts_nodes (q : Quoting) (c : Clause) :
    Template.acts (c.template q) = c.nodes.flatMap (ownActs q) := by
  induction c using induct_children with
  | step c ih =>
    rw [acts_template, nodes_eq, List.flatMap_cons, List.flatMap_assoc]
    exact congrArg _ (List.flatMap_congr ih)

/-! ### Clauses without assignments -/

def isAssignment : Clause → Bool
  | insert .. => true
  | update .. => true
  | _ => false

theorem assigns_eq (c : Clause) : c.assigns = (c.isAssignment || c.children.any assigns) := by
  cases c with
  | select columns froms condition order limit offset distinct =>
    cases condition <;> cases order <;>
      simp [select_assigns, isAssignment, children, Bool.or_assoc]
  | delete t condition => cases condition <;> simp [assigns, isAssignment, children]
  | _ => simp [assigns, anyAssigns_eq_any, isAssignment, children, Bool.or_assoc]

theorem isAssignment_of_mem_nodes (c : Clause) (h : c.assigns = false) :
    ∀ d ∈ c.nodes, d.isAssignment = false := by
  induction c using induct_children with
  | step c ih =>
    rw [assigns_eq, Bool.or_eq_false_iff, List.any_eq_false] at h
    rw [forall_nodes]
    exact ⟨h.1, fun d hd => ih d hd (by simpa using h.2 d hd)⟩

/-- A conjunction without members. -/
def isEmptyJunction : Clause → Bool
  | junction _ [] => true
  | _ => false

/-- The error names the first conjunction without members. -/
def FirstEmpty (c : Clause) (e : Error) : Prop :=
  ∃ o part, c.nodes.find? isEmptyJunction = some (.junction o []) ∧
    EmptyPart.name part = (if o = .or then "OR list" else "AND list") ∧ e = .empty part

theorem eq_emptyJunction_iff (o : Operator) (e : Error) :
    e = emptyJunction o ↔
      ∃ part, EmptyPart.name part = (if o = .or then "OR list" else "AND list") ∧
        e = .empty part := by
  have hcause : emptyJunction o = .empty (if o = .or then .orList else .andList) := by
    cases o <;> rfl
  rw [hcause]
  by_cases ho : o = .or
  · simp only [ho, ite_true]
    constructor
    · rintro rfl
      exact ⟨.orList, rfl, rfl⟩
    · rintro ⟨part, hpart, rfl⟩
      cases part <;> first | rfl | exact absurd hpart (by decide)
  · simp only [ho, ite_false]
    constructor
    · rintro rfl
      exact ⟨.andList, rfl, rfl⟩
    · rintro ⟨part, hpart, rfl⟩
      cases part <;> first | rfl | exact absurd hpart (by decide)

theorem claim_of_not_isAssignment (q : Quoting) (c : Clause) (h : c.isAssignment = false) :
    ∀ p ∈ c.ownActs q, p.claim? = none := by
  intro p hp
  cases c with
  | junction o cs =>
    cases cs with
    | nil =>
      rw [List.mem_singleton.mp hp]
      rfl
    | cons c cs => exact absurd hp List.not_mem_nil
  | bind key v =>
    rw [List.mem_singleton.mp hp]
    rfl
  | insert t values => cases h
  | update t values condition => cases h
  | _ => exact absurd hp List.not_mem_nil

theorem findSome_refusal (q : Quoting) (ds : List Clause) (e : Error)
    (h : ∀ d ∈ ds, d.isAssignment = false) :
    (ds.flatMap (ownActs q)).findSome? Piece.refusal? = some e ↔
      ∃ o, ds.find? isEmptyJunction = some (.junction o []) ∧ e = emptyJunction o := by
  induction ds with
  | nil => simp
  | cons d ds ih =>
    obtain ⟨hd, hds⟩ := List.forall_mem_cons.mp h
    by_cases hempty : d.isEmptyJunction = true
    · rw [List.find?_cons_of_pos hempty, List.flatMap_cons]
      cases d with
      | junction o cs =>
        cases cs with
        | nil =>
          have hfirst : List.findSome? Piece.refusal?
              ([.refuse (emptyJunction o)] ++ ds.flatMap (ownActs q))
                = some (emptyJunction o) := rfl
          rw [ownActs, hfirst, Option.some.injEq]
          constructor
          · intro he
            exact ⟨o, rfl, he.symm⟩
          · rintro ⟨p, hp, he⟩
            cases hp
            exact he.symm
        | cons c cs => cases hempty
      | _ => cases hempty
    · have hnone : List.findSome? Piece.refusal? (d.ownActs q) = none := by
        cases d with
        | junction o cs =>
          cases cs with
          | nil => exact absurd rfl hempty
          | cons c cs => rfl
        | insert t values => cases hd
        | update t values condition => cases hd
        | _ => rfl
      rw [List.find?_cons_of_neg hempty, List.flatMap_cons, List.findSome?_append, hnone,
        Option.none_or]
      exact ih hds

/-- From every binder on, a clause without INSERT and UPDATE fails at its first conjunction
without members. -/
theorem run_eq_error_iff (q : Quoting) (b : Binder) (c : Clause) (e : Error)
    (h : c.assigns = false) :
    Template.run b (c.template q) = .error e ↔ c.FirstEmpty e := by
  have hnodes := isAssignment_of_mem_nodes c h
  have hclaims : ∀ p ∈ c.nodes.flatMap (ownActs q), p.claim? = none := by
    intro p hp
    obtain ⟨d, hd, hpd⟩ := List.mem_flatMap.mp hp
    exact claim_of_not_isAssignment q d (hnodes d hd) p hpd
  rw [← Template.run_acts, acts_nodes, Template.run_eq_error_of_uses b _ e hclaims,
    findSome_refusal q c.nodes e hnodes]
  simp only [eq_emptyJunction_iff, FirstEmpty, exists_and_left]

theorem compile_eq_error_iff_run (q : Quoting) (c : Clause) (e : Error) :
    c.compile q = .error e ↔ Template.run {} (c.template q) = .error e := by
  unfold compile Template.run
  cases Template.fill {} (c.template q) <;> simp [Except.map]

theorem exists_firstEmpty_iff (c : Clause) :
    (∃ e, c.FirstEmpty e) ↔ ∃ o, .junction o [] ∈ c.nodes := by
  constructor
  · rintro ⟨e, o, part, ho, _⟩
    exact ⟨o, List.mem_of_find?_eq_some ho⟩
  · rintro ⟨o, ho⟩
    have hsome : (c.nodes.find? isEmptyJunction).isSome := List.find?_isSome.mpr ⟨_, ho, rfl⟩
    obtain ⟨d, hd⟩ := Option.isSome_iff_exists.mp hsome
    have hempty := List.find?_some hd
    cases d with
    | junction p cs =>
      cases cs with
      | nil =>
        obtain ⟨part, hpart, _⟩ := (eq_emptyJunction_iff p _).mp rfl
        exact ⟨_, p, part, hd, hpart, rfl⟩
      | cons c cs => cases hempty
    | _ => cases hempty

end Clause

/-! ### Statements that set columns -/

theorem names_setValue (values : List (String × Scalar)) (column : String) (v : Scalar) :
    (setValue values column v).map (·.1)
      = if column ∈ values.map (·.1) then values.map (·.1) else values.map (·.1) ++ [column] := by
  induction values with
  | nil => rfl
  | cons e values ih =>
    by_cases he : e.1 = column
    · simp [setValue, he]
    · have hne : column ≠ e.1 := fun h => he h.symm
      rw [setValue, if_neg he, List.map_cons, ih]
      by_cases hmem : column ∈ values.map (·.1) <;> simp [hmem, hne]

theorem nodup_setValues (values : Option (List (String × Scalar)))
    (pairs : List (String × Scalar)) (h : ((values.getD []).map (·.1)).Nodup) :
    ((setValues values pairs).map (·.1)).Nodup := by
  unfold setValues
  generalize values.getD [] = row at h
  induction pairs generalizing row with
  | nil => exact h
  | cons e pairs ih =>
    refine ih _ ?_
    rw [names_setValue]
    split
    · exact h
    · next hnew =>
      rw [List.nodup_append]
      refine ⟨h, List.nodup_singleton _, fun name hname other hother => ?_⟩
      rw [List.mem_singleton.mp hother]
      exact fun he => hnew (he ▸ hname)

/-- An INSERT into a declared table whose values were added step by step. -/
inductive Insert.Made : Insert → Prop
  | into (name : String) (columns : List Column) (t : Table)
    (ht : Table.declare name columns = .ok t) : Made ⟨t, none⟩
  | values (i : Insert) (pairs : List (String × Scalar)) (hi : Made i) : Made (i.addValues pairs)

/-- An UPDATE of a declared table whose values and conditions were added step by step. -/
inductive Update.Made : Update → Prop
  | of (name : String) (columns : List Column) (t : Table)
    (ht : Table.declare name columns = .ok t) : Made ⟨t, none, none⟩
  | values (u : Update) (pairs : List (String × Scalar)) (hu : Made u) : Made (u.addValues pairs)
  | condition (u : Update) (c : Clause) (hu : Made u) : Made (u.where c)

/-- No two of the columns that a statement sets have the same name. -/
theorem nodup_claimedColumns (t : Table) (values : Option (List (String × Scalar)))
    (ht : t.WellFormed) (h : ((values.getD []).map (·.1)).Nodup) :
    (claimedColumns t values).Nodup := by
  cases values with
  | none => exact ht.2.2
  | some row => exact h

theorem Insert.Made.distinct (i : Insert) (hi : i.Made) :
    i.table.WellFormed ∧ ((i.values.getD []).map (·.1)).Nodup := by
  induction hi with
  | into name columns t ht => exact ⟨((Table.declare_eq_ok name columns t).mp ht).2, List.nodup_nil⟩
  | values i pairs _ ih => exact ⟨ih.1, nodup_setValues i.values pairs ih.2⟩

theorem Update.Made.distinct (u : Update) (hu : u.Made) :
    u.table.WellFormed ∧ ((u.values.getD []).map (·.1)).Nodup := by
  induction hu with
  | of name columns t ht => exact ⟨((Table.declare_eq_ok name columns t).mp ht).2, List.nodup_nil⟩
  | values u pairs _ ih => exact ⟨ih.1, nodup_setValues u.values pairs ih.2⟩
  | condition u c _ ih => exact ih

/-- Why columns cannot be set: some values have names that the table does not declare, or the
list of values is empty. -/
def CannotSet (t : Table) (values : Option (List (String × Scalar))) (e : Error) : Prop :=
  let given := (values.getD []).map (·.1)
  (∃ column ∈ given, column ∉ t.columnNames) ∧
      e = .unknownColumns t.name (given.filter fun column => decide (column ∉ t.columnNames)) ∨
    values = some [] ∧ e = .empty .valueList

theorem unknownColumns_eq_filter (t : Table) (names : List String) :
    t.unknownColumns names = names.filter fun column => decide (column ∉ t.columnNames) := by
  unfold Table.unknownColumns
  refine List.filter_congr fun column _ => ?_
  rw [Bool.eq_iff_iff, Bool.not_eq_true', decide_eq_true_iff, ← Table.hasColumn_iff,
    Bool.not_eq_true]

/-- The acts of an assignment refuse what cannot be set, and otherwise claim the columns. -/
theorem assignmentActs_cases (q : Quoting) (t : Table) (values : Option (List (String × Scalar))) :
    (∃ e, assignmentActs q t values = [.refuse e] ∧ ∀ e', CannotSet t values e' ↔ e = e') ∨
      (assignmentActs q t values).map Piece.claim? = (claimedColumns t values).map some ∧
        ∀ e', ¬ CannotSet t values e' := by
  cases values with
  | none =>
    refine Or.inr ⟨?_, ?_⟩
    · simp only [assignmentActs, assignments, claimedColumns, List.map_map]
      rfl
    · simp [CannotSet]
  | some row =>
    by_cases hunknown : ∃ column ∈ row.map (·.1), column ∉ t.columnNames
    · have hne : (t.unknownColumns (row.map (·.1))).isEmpty = false := by
        rw [List.isEmpty_eq_false_iff, ne_eq, Table.unknownColumns_eq_nil]
        obtain ⟨column, hmem, hnot⟩ := hunknown
        exact fun hall => hnot (hall column hmem)
      have hrow : some row ≠ some [] := by
        rintro he
        cases he
        simp at hunknown
      refine Or.inl ⟨.unknownColumns t.name (t.unknownColumns (row.map (·.1))), ?_, ?_⟩
      · simp [assignmentActs, assignments, hne]
      · intro e'
        rw [unknownColumns_eq_filter]
        simp only [CannotSet, Option.getD_some, hunknown, hrow, true_and, false_and, or_false]
        exact eq_comm
    · have hnil : (t.unknownColumns (row.map (·.1))).isEmpty = true := by
        rw [List.isEmpty_iff, Table.unknownColumns_eq_nil]
        intro column hmem
        by_contra hnot
        exact hunknown ⟨column, hmem, hnot⟩
      cases row with
      | nil =>
        refine Or.inl ⟨.empty .valueList, rfl, fun e' => ?_⟩
        simp only [CannotSet, Option.getD_some, hunknown, false_and, true_and, false_or]
        exact eq_comm
      | cons v row =>
        refine Or.inr ⟨?_, ?_⟩
        · simp only [assignmentActs, assignments, hnil, Bool.not_true, Bool.false_eq_true,
            ite_false, List.isEmpty_cons, claimedColumns, List.map_map]
          rfl
        · intro e'
          simp only [CannotSet, Option.getD_some, hunknown, false_and, false_or]
          rintro ⟨he, _⟩
          cases he

/-- Setting columns of different names fails at what cannot be set and nowhere else. -/
theorem run_assignmentActs (q : Quoting) (t : Table) (values : Option (List (String × Scalar)))
    (h : (claimedColumns t values).Nodup) :
    (∃ e, Template.run {} (assignmentActs q t values) = .error e ∧
        ∀ e', CannotSet t values e' ↔ e = e') ∨
      (∃ b, Template.run {} (assignmentActs q t values) = .ok b) ∧
        ∀ e', ¬ CannotSet t values e' := by
  rcases assignmentActs_cases q t values with ⟨e, hacts, hcannot⟩ | ⟨hclaims, hcan⟩
  · refine Or.inl ⟨e, ?_, hcannot⟩
    rw [hacts]
    rfl
  · exact Or.inr ⟨Template.run_claims {} _ _ hclaims h fun _ _ => List.not_mem_nil, hcan⟩

namespace Clause

theorem compile_insert_eq_error (q : Quoting) (t : Table)
    (values : Option (List (String × Scalar))) (e : Error)
    (h : (claimedColumns t values).Nodup) :
    (Clause.insert t values).compile q = .error e ↔ CannotSet t values e := by
  rw [compile_eq_error_iff_run, ← Template.run_acts, template, acts_insertTemplate]
  rcases run_assignmentActs q t values h with ⟨e', hrun, hcannot⟩ | ⟨⟨b, hrun⟩, hcan⟩
  · rw [hrun, hcannot, Except.error.injEq]
  · rw [hrun]
    simp [hcan]

/-- An UPDATE fails at what cannot be set, and otherwise at its condition. -/
theorem compile_update_eq_error (q : Quoting) (t : Table)
    (values : Option (List (String × Scalar))) (condition : Option Clause) (e : Error)
    (h : (claimedColumns t values).Nodup) (hc : ∀ c ∈ condition, c.assigns = false) :
    (Clause.update t values condition).compile q = .error e ↔
      CannotSet t values e ∨
        (∀ e', ¬ CannotSet t values e') ∧ ∃ c ∈ condition, c.FirstEmpty e := by
  rw [compile_eq_error_iff_run, template_update, Template.run_append, ← Template.run_acts,
    acts_updateTemplate]
  rcases run_assignmentActs q t values h with ⟨e', hrun, hcannot⟩ | ⟨⟨b, hrun⟩, hcan⟩
  · rw [hrun, Except.bind, Except.error.injEq, hcannot]
    simp [hcannot]
  · rw [hrun, Except.bind]
    cases condition with
    | none => simp [hcan, whereTemplate, Template.run_nil]
    | some c =>
      rw [whereTemplate, Template.run_text_cons, run_eq_error_iff q b c e (hc c rfl)]
      simp [hcan]

/--
A clause without INSERT and UPDATE fails exactly when a conjunction without members is one of its
nodes, and the error is that of the first of them. An INSERT or an UPDATE that was built step by
step fails exactly when it gives a value to an undeclared column, else when it is given no values,
else when its condition has such a conjunction; no name is ever bound twice.
-/
theorem compile_fails :
    (∀ (q : Quoting) (c : Clause), c.assigns = false →
      ((∃ e, c.compile q = .error e) ↔ ∃ o, .junction o [] ∈ c.nodes) ∧
      ∀ e, c.compile q = .error e ↔ c.FirstEmpty e) ∧
    (∀ (q : Quoting) (i : Insert), i.Made →
      (∀ e, i.toClause.compile q = .error e ↔ CannotSet i.table i.values e) ∧
      ∀ name, i.toClause.compile q ≠ .error (.duplicateParameter name)) ∧
    ∀ (q : Quoting) (u : Update), u.Made → (∀ c ∈ u.condition, c.assigns = false) →
      (∀ e, u.toClause.compile q = .error e ↔
        CannotSet u.table u.values e ∨
          (∀ e', ¬ CannotSet u.table u.values e') ∧ ∃ c ∈ u.condition, c.FirstEmpty e) ∧
      ∀ name, u.toClause.compile q ≠ .error (.duplicateParameter name) := by
  refine ⟨fun q c hc => ?_, fun q i hi => ?_, fun q u hu hc => ?_⟩
  · have hiff : ∀ e, c.compile q = .error e ↔ c.FirstEmpty e := fun e => by
      rw [compile_eq_error_iff_run, run_eq_error_iff q {} c e hc]
    refine ⟨?_, hiff⟩
    simp only [hiff]
    exact exists_firstEmpty_iff c
  · obtain ⟨ht, hrow⟩ := hi.distinct
    have hiff := fun e =>
      compile_insert_eq_error q i.table i.values e (nodup_claimedColumns _ _ ht hrow)
    refine ⟨hiff, fun name h => ?_⟩
    rcases (hiff _).mp h with ⟨_, he⟩ | ⟨_, he⟩ <;> cases he
  · obtain ⟨ht, hrow⟩ := hu.distinct
    have hiff := fun e => compile_update_eq_error q u.table u.values u.condition e
      (nodup_claimedColumns _ _ ht hrow) hc
    refine ⟨hiff, fun name h => ?_⟩
    rcases (hiff _).mp h with (⟨_, he⟩ | ⟨_, he⟩) | ⟨_, _, _, _, _, _, _, he⟩ <;> cases he

/-- A condition with an OR list that has nothing to choose from. -/
def noChoice : Clause :=
  .allOf [ColumnRef.compare { name := "score" } .gt (.value (.int 5)), .anyOf []]

/-- An INSERT of a title into games, which have scores only. -/
def titledGame : Insert :=
  Insert.addValues ⟨⟨"games", [⟨"score", .integer, {}⟩]⟩, none⟩ [("score", .int 7), ("title", .null)]

/-- An UPDATE of all scores under a condition without a choice. -/
def scoreWithoutChoice : Update :=
  Update.where ⟨⟨"games", [⟨"score", .integer, {}⟩]⟩, none, none⟩ noChoice

theorem compile_fails_noChoice :
    (noChoice.assigns = false ∧ .junction .or [] ∈ noChoice.nodes ∧
      (∃ e, noChoice.compile .plain = .error e) ∧
      noChoice.compile .plain = .error (.empty .orList)) ∧
    (titledGame.Made ∧
      titledGame.toClause.compile .plain = .error (.unknownColumns "games" ["title"])) ∧
    (scoreWithoutChoice.Made ∧ (∀ c ∈ scoreWithoutChoice.condition, c.assigns = false) ∧
      scoreWithoutChoice.toClause.compile .plain = .error (.empty .orList)) := by
  have hgames : Table.declare "games" [⟨"score", .integer, {}⟩]
      = .ok ⟨"games", [⟨"score", .integer, {}⟩]⟩ := rfl
  have htitled : titledGame.Made := .values _ _ (.into _ _ _ hgames)
  have hscore : scoreWithoutChoice.Made := .condition _ _ (.of _ _ _ hgames)
  have hfree : ∀ c ∈ scoreWithoutChoice.condition, c.assigns = false := by
    rintro c ⟨⟩
    rfl
  have hfind : noChoice.nodes.find? isEmptyJunction = some (.junction .or []) := rfl
  have hfirst : noChoice.FirstEmpty (.empty .orList) := ⟨.or, .orList, hfind, rfl, rfl⟩
  have hmem : .junction .or [] ∈ noChoice.nodes := List.mem_of_find?_eq_some hfind
  have hfails := compile_fails.1 .plain noChoice rfl
  refine ⟨⟨rfl, hmem, hfails.1.mpr ⟨.or, hmem⟩, (hfails.2 _).mpr hfirst⟩, ⟨htitled, ?_⟩,
    hscore, hfree, ?_⟩
  · refine ((compile_fails.2.1 .plain titledGame htitled).1 _).mpr (Or.inl ⟨⟨"title", ?_⟩, rfl⟩)
    decide
  · refine ((compile_fails.2.2 .plain scoreWithoutChoice hscore hfree).1 _).mpr (Or.inr ⟨?_, ?_⟩)
    · rintro e (⟨⟨column, hcolumn, _⟩, _⟩ | ⟨hnone, _⟩)
      · cases hcolumn
      · cases hnone
    · exact ⟨noChoice, rfl, hfirst⟩

end Clause

end BoundSql
