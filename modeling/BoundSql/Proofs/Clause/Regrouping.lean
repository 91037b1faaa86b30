import BoundSql.Clause.Decode
import BoundSql.Proofs.Clause.Induction
import BoundSql.Statement
import Mathlib.Logic.Relation

/-!
# Parentheses that make no difference

A conjunction that is a member of another one is written in parentheses, whether it stands in a
group or not, and a group in a group is written with one pair. Such groups can be added and taken
away anywhere in a clause without a difference in what it renders to, so that a clause whose
conjunctions hold others bare renders as the one that is built from the same members.
-/

namespace BoundSql

namespace Clause

/-! ### Rewriting -/

/-- A node with a gap in the place of one of the clauses directly below it. -/
inductive Frame where
  | left (operator : Operator) (right : Clause)
  | right (left : Clause) (operator : Operator)
  | operand (operator modifier : Option Operator)
  | member (operator : Operator) (before after : List Clause)
  | inner
  | item (before after : List Clause) (separator : String)
  | joinLeft (right on : Clause) (outer : Bool)
  | joinRight (left on : Clause) (outer : Bool)
  | joinOn (left right : Clause) (outer : Bool)
  | selected (x : Select) (before after : List Clause)
  | source (x : Select) (before after : List Clause)
  | selectCondition (x : Select)
  | term (x : Select) (before after : List Clause) (separator : String)
  | updateCondition (u : Update)
  | deleteCondition (d : Delete)

def Frame.fill : Frame → Clause → Clause
  | left o r, c => .binary c o r
  | right l o, c => .binary l o c
  | operand o m, c => .unary o c m
  | member o before after, c => .junction o (before ++ c :: after)
  | inner, c => .group c
  | item before after separator, c => .sequence (before ++ c :: after) separator
  | joinLeft r on outer, c => .join c r on outer
  | joinRight l on outer, c => .join l c on outer
  | joinOn l r outer, c => .join l r c outer
  | selected x before after, c => { x with columns := before ++ c :: after }.toClause
  | source x before after, c => { x with froms := before ++ c :: after }.toClause
  | selectCondition x, c => { x with condition := some c }.toClause
  | term x before after separator, c =>
    { x with order := some ⟨before ++ c :: after, separator⟩ }.toClause
  | updateCondition u, c => { u with condition := some c }.toClause
  | deleteCondition d, c => { d with condition := some c }.toClause

/-- One group is added or merged, somewhere in a clause. -/
inductive Regroups : Clause → Clause → Prop
  | wrap (o p : Operator) (before after cs : List Clause) :
    Regroups (.junction o (before ++ .junction p cs :: after))
      (.junction o (before ++ .group (.junction p cs) :: after))
  | merge (c : Clause) : Regroups (.group (.group c)) (.group c)
  | within (f : Frame) (c d : Clause) (h : Regroups c d) : Regroups (f.fill c) (f.fill d)

/-! ### Templates -/

/-- All that the nodes above a clause look at is the same for both. -/
structure Alike (q : Quoting) (c d : Clause) : Prop where
  template : c.template q = d.template q
  columnRefs : c.columnRefs = d.columnRefs
  isJunction : c.isJunction = d.isJunction
  isGroup : c.isGroup = d.isGroup

theorem template_junction (q : Quoting) (o : Operator) (before after : List Clause) (c : Clause) :
    (junction o (before ++ c :: after)).template q
      = Template.join (" " ++ o.symbol ++ " ")
          (before.map (memberTemplate q)
            ++ memberTemplate q c :: after.map (memberTemplate q)) := by
  have hempty : (before ++ c :: after).isEmpty = false := by simp
  rw [template, hempty, if_neg Bool.false_ne_true, memberTemplates_eq_map, List.map_append,
    List.map_cons]

theorem columnRefsOfAll_around (before after : List Clause) (c : Clause) :
    columnRefsOfAll (before ++ c :: after)
      = before.flatMap columnRefs ++ (c.columnRefs ++ after.flatMap columnRefs) := by
  rw [columnRefsOfAll_eq_flatMap, List.flatMap_append, List.flatMap_cons]

theorem fromsTemplate_congr (q : Quoting) (columns columns' froms : List Clause)
    (h : columnRefsOfAll columns = columnRefsOfAll columns') :
    fromsTemplate q columns froms = fromsTemplate q columns' froms := by
  rw [fromsTemplate, fromsTemplate, ownersOf, ownersOf, h]

namespace Alike

variable {q : Quoting} {c d : Clause}

theorem memberTemplate (h : Alike q c d) : memberTemplate q c = memberTemplate q d := by
  rw [Clause.memberTemplate, Clause.memberTemplate, h.isJunction, h.template]

theorem map_template (h : Alike q c d) (before after : List Clause) :
    (before ++ c :: after).map (Clause.template q)
      = (before ++ d :: after).map (Clause.template q) := by
  rw [List.map_append, List.map_append, List.map_cons, List.map_cons, h.template]

theorem columnRefsOfAll (h : Alike q c d) (before after : List Clause) :
    columnRefsOfAll (before ++ c :: after) = columnRefsOfAll (before ++ d :: after) := by
  rw [columnRefsOfAll_around, columnRefsOfAll_around, h.columnRefs]

theorem template_select (h : Alike q c d) (x : Select) (before after : List Clause) :
    { x with columns := before ++ c :: after }.toClause.template q
      = { x with columns := before ++ d :: after }.toClause.template q := by
  have hcolumns : columnsTemplate q (before ++ c :: after)
      = columnsTemplate q (before ++ d :: after) := by
    simp [columnsTemplate, h.template]
  have hfroms := fromsTemplate_congr q _ _ x.froms (h.columnRefsOfAll before after)
  simp only [Select.toClause, Clause.template_select, hcolumns, hfroms]

theorem template_froms (h : Alike q c d) (x : Select) (before after : List Clause) :
    { x with froms := before ++ c :: after }.toClause.template q
      = { x with froms := before ++ d :: after }.toClause.template q := by
  have hfroms : fromsTemplate q x.columns (before ++ c :: after)
      = fromsTemplate q x.columns (before ++ d :: after) := by
    simp [fromsTemplate, h.template]
  simp only [Select.toClause, Clause.template_select, hfroms]

theorem template_order (h : Alike q c d) (x : Select) (before after : List Clause)
    (separator : String) :
    { x with order := some ⟨before ++ c :: after, separator⟩ }.toClause.template q
      = { x with order := some ⟨before ++ d :: after, separator⟩ }.toClause.template q := by
  have horder : orderTemplate q (some ⟨before ++ c :: after, separator⟩)
      = orderTemplate q (some ⟨before ++ d :: after, separator⟩) := by
    simp [orderTemplate, h.template]
  simp only [Select.toClause, Clause.template_select, horder]

theorem fill (h : Alike q c d) (f : Frame) : Alike q (f.fill c) (f.fill d) := by
  have hwhere : whereTemplate q (some c) = whereTemplate q (some d) := by
    rw [whereTemplate, whereTemplate, h.template]
  cases f with
  | left o r =>
    refine ⟨?_, ?_, rfl, rfl⟩
    · simp only [Frame.fill, Clause.template, h.template]
    · simp only [Frame.fill, Clause.columnRefs, h.columnRefs]
  | right l o =>
    refine ⟨?_, ?_, rfl, rfl⟩
    · simp only [Frame.fill, Clause.template, h.template]
    · simp only [Frame.fill, Clause.columnRefs, h.columnRefs]
  | operand o m =>
    refine ⟨?_, h.columnRefs, rfl, rfl⟩
    simp only [Frame.fill, Clause.template, h.template]
  | member o before after =>
    refine ⟨?_, h.columnRefsOfAll before after, rfl, rfl⟩
    rw [Frame.fill, Frame.fill, template_junction, template_junction, h.memberTemplate]
  | inner =>
    refine ⟨?_, h.columnRefs, rfl, rfl⟩
    simp only [Frame.fill, Clause.template, h.template, h.isGroup]
  | item before after separator =>
    refine ⟨?_, h.columnRefsOfAll before after, rfl, rfl⟩
    simp only [Frame.fill, Clause.template, templates_eq_map, h.map_template]
  | joinLeft r on outer =>
    refine ⟨?_, rfl, rfl, rfl⟩
    simp only [Frame.fill, Clause.template, h.template]
  | joinRight l on outer =>
    refine ⟨?_, rfl, rfl, rfl⟩
    simp only [Frame.fill, Clause.template, h.template]
  | joinOn l r outer =>
    refine ⟨?_, rfl, rfl, rfl⟩
    simp only [Frame.fill, Clause.template, h.template]
  | selected x before after => exact ⟨h.template_select x before after, rfl, rfl, rfl⟩
  | source x before after => exact ⟨h.template_froms x before after, rfl, rfl, rfl⟩
  | selectCondition x =>
    refine ⟨?_, rfl, rfl, rfl⟩
    simp only [Frame.fill, Select.toClause, Clause.template_select, hwhere]
  | term x before after separator =>
    exact ⟨h.template_order x before after separator, rfl, rfl, rfl⟩
  | updateCondition u =>
    refine ⟨?_, rfl, rfl, rfl⟩
    simp only [Frame.fill, Update.toClause, template_update, hwhere]
  | deleteCondition d =>
    refine ⟨?_, rfl, rfl, rfl⟩
    simp only [Frame.fill, Delete.toClause, template_delete, hwhere]

end Alike

theorem memberTemplate_group (q : Quoting) (o : Operator) (cs : List Clause) :
    memberTemplate q (group (junction o cs)) = memberTemplate q (junction o cs) := by
  have hjunction : (group (junction o cs)).isJunction = false := rfl
  rw [memberTemplate, memberTemplate, hjunction, if_neg Bool.false_ne_true, template]
  rfl

theorem alike_of_regroups (q : Quoting) (c d : Clause) (h : Regroups c d) : Alike q c d := by
  induction h with
  | wrap o p before after cs =>
    refine ⟨?_, ?_, rfl, rfl⟩
    · rw [template_junction, template_junction, memberTemplate_group]
    · rw [columnRefs, columnRefs, columnRefsOfAll_around, columnRefsOfAll_around]
      rfl
  | merge c => exact ⟨rfl, rfl, rfl, rfl⟩
  | within f c d _ ih => exact ih.fill f

theorem template_of_regrouped (q : Quoting) (c d : Clause) (h : Relation.EqvGen Regroups c d) :
    c.template q = d.template q := by
  induction h with
  | rel c d h => exact (alike_of_regroups q c d h).template
  | refl c => rfl
  | symm c d _ ih => exact ih.symm
  | trans c d e _ _ ihd ihe => exact ihd.trans ihe

/-! ### Rebuilding -/

mutual
/-- The clause with each of its conjunctions built from its members, and these built likewise. -/
def rebuilt : Clause → Clause
  | binary l o r => binary (rebuilt l) o (rebuilt r)
  | unary o c m => unary o (rebuilt c) m
  | junction o cs => joinedBy o (rebuiltAll cs)
  | group c => group (rebuilt c)
  | sequence cs separator => sequence (rebuiltAll cs) separator
  | join l r on outer => join (rebuilt l) (rebuilt r) (rebuilt on) outer
  | select columns froms condition order limit offset distinct =>
    select (rebuiltAll columns) (rebuiltAll froms)
      (match condition with
        | some c => some (rebuilt c)
        | none => none)
      (match order with
        | some ⟨terms, separator⟩ => some ⟨rebuiltAll terms, separator⟩
        | none => none)
      limit offset distinct
  | update t values condition =>
    update t values
      (match condition with
        | some c => some (rebuilt c)
        | none => none)
  | delete t condition =>
    delete t
      (match condition with
        | some c => some (rebuilt c)
        | none => none)
  | c => c

def rebuiltAll : List Clause → List Clause
  | [] => []
  | c :: cs => rebuilt c :: rebuiltAll cs
end

theorem rebuiltAll_eq_map (cs : List Clause) : rebuiltAll cs = cs.map rebuilt := by
  induction cs with
  | nil => rfl
  | cons c cs ih => rw [rebuiltAll, ih, List.map_cons]

theorem regrouped_fill (f : Frame) (c d : Clause) (h : Relation.EqvGen Regroups c d) :
    Relation.EqvGen Regroups (f.fill c) (f.fill d) := by
  induction h with
  | rel c d h => exact .rel _ _ (.within f c d h)
  | refl c => exact .refl _
  | symm c d _ ih => exact .symm _ _ ih
  | trans c d e _ _ ihd ihe => exact .trans _ _ _ ihd ihe

theorem regrouped_map (f : List Clause → Clause) (g : Clause → Clause) (cs : List Clause)
    (h : ∀ c ∈ cs, ∀ before after,
      Relation.EqvGen Regroups (f (before ++ c :: after)) (f (before ++ g c :: after))) :
    Relation.EqvGen Regroups (f cs) (f (cs.map g)) := by
  -- The members before the first one are rewritten already.
  have hbehind : ∀ before,
      Relation.EqvGen Regroups (f (before ++ cs)) (f (before ++ cs.map g)) := by
    induction cs with
    | nil => exact fun before => .refl _
    | cons c cs ih =>
      intro before
      have hhead := h c (List.mem_cons_self ..) before cs
      have htail := ih (fun d hd => h d (List.mem_cons_of_mem _ hd)) (before ++ [g c])
      rw [List.append_assoc, List.append_assoc] at htail
      exact .trans _ _ _ hhead htail
  exact hbehind []

theorem regrouped_joinedBy (o : Operator) (cs : List Clause) :
    Relation.EqvGen Regroups (.junction o cs) (joinedBy o cs) := by
  refine regrouped_map (junction o) asMember cs fun c _ before after => ?_
  cases c with
  | junction p ds => exact .rel _ _ (.wrap o p before after ds)
  | _ => exact .refl _

theorem regrouped_condition (f : Option Clause → Clause) (frame : Frame)
    (hframe : ∀ c, frame.fill c = f (some c)) (condition : Option Clause)
    (ih : ∀ c ∈ condition, Relation.EqvGen Regroups c c.rebuilt) :
    Relation.EqvGen Regroups (f condition) (f (condition.map rebuilt)) := by
  cases condition with
  | none => exact .refl _
  | some c =>
    have hfilled := regrouped_fill frame c c.rebuilt (ih c rfl)
    rwa [hframe, hframe] at hfilled

def rebuiltOrder (o : OrderTerms Clause) : OrderTerms Clause :=
  ⟨o.terms.map rebuilt, o.separator⟩

theorem regrouped_order (x : Select) (order : Option (OrderTerms Clause))
    (ih : ∀ o ∈ order, ∀ c ∈ OrderTerms.terms o, Relation.EqvGen Regroups c c.rebuilt) :
    Relation.EqvGen Regroups { x with order := order }.toClause
      { x with order := order.map rebuiltOrder }.toClause := by
  cases order with
  | none => exact .refl _
  | some o =>
    exact regrouped_map (fun cs => { x with order := some ⟨cs, o.separator⟩ }.toClause) rebuilt
      o.terms fun c hc before after =>
        regrouped_fill (.term x before after o.separator) _ _ (ih o rfl c hc)

theorem rebuilt_select (x : Select) :
    x.toClause.rebuilt
      = .select (x.columns.map rebuilt) (x.froms.map rebuilt) (x.condition.map rebuilt)
        (x.order.map rebuiltOrder) x.limit x.offset x.distinct := by
  obtain ⟨columns, froms, condition, order, limit, offset, distinct⟩ := x
  cases condition <;> cases order <;>
    simp only [Select.toClause, rebuilt, rebuiltAll_eq_map, rebuiltOrder, Option.map]

theorem regrouped_select (x : Select)
    (hcolumns : ∀ c ∈ x.columns, Relation.EqvGen Regroups c c.rebuilt)
    (hfroms : ∀ c ∈ x.froms, Relation.EqvGen Regroups c c.rebuilt)
    (hcondition : ∀ c ∈ x.condition, Relation.EqvGen Regroups c c.rebuilt)
    (horder : ∀ o ∈ x.order, ∀ c ∈ OrderTerms.terms o, Relation.EqvGen Regroups c c.rebuilt) :
    Relation.EqvGen Regroups x.toClause x.toClause.rebuilt := by
  -- The parts are rewritten one after the other, each in what the one before has left.
  let y : Select := { x with columns := x.columns.map rebuilt }
  let z : Select := { y with froms := x.froms.map rebuilt }
  let w : Select := { z with condition := x.condition.map rebuilt }
  have hy : Relation.EqvGen Regroups x.toClause y.toClause :=
    regrouped_map (fun cs => { x with columns := cs }.toClause) rebuilt x.columns
      fun c hc before after => regrouped_fill (.selected x before after) _ _ (hcolumns c hc)
  have hz : Relation.EqvGen Regroups y.toClause z.toClause :=
    regrouped_map (fun cs => { y with froms := cs }.toClause) rebuilt x.froms
      fun c hc before after => regrouped_fill (.source y before after) _ _ (hfroms c hc)
  have hw : Relation.EqvGen Regroups z.toClause w.toClause :=
    regrouped_condition (fun condition => { z with condition := condition }.toClause)
      (.selectCondition z) (fun _ => rfl) x.condition hcondition
  have hlast := regrouped_order w x.order horder
  rw [rebuilt_select]
  exact .trans _ _ _ hy (.trans _ _ _ hz (.trans _ _ _ hw hlast))

theorem regrouped_rebuilt (c : Clause) : Relation.EqvGen Regroups c c.rebuilt := by
  induction c using Clause.induct with
  | binary l o r ihl ihr =>
    exact .trans _ _ _ (regrouped_fill (.left o r) _ _ ihl) (regrouped_fill (.right _ o) _ _ ihr)
  | unary o c m ih => exact regrouped_fill (.operand o m) _ _ ih
  | junction o cs ih =>
    have hmembers := regrouped_map (junction o) rebuilt cs fun c hc before after =>
      regrouped_fill (.member o before after) _ _ (ih c hc)
    rw [rebuilt, rebuiltAll_eq_map]
    exact .trans _ _ _ hmembers (regrouped_joinedBy o _)
  | group c ih => exact regrouped_fill .inner _ _ ih
  | sequence cs separator ih =>
    rw [rebuilt, rebuiltAll_eq_map]
    exact regrouped_map (sequence · separator) rebuilt cs fun c hc before after =>
      regrouped_fill (.item before after separator) _ _ (ih c hc)
  | join l r on outer ihl ihr ihon =>
    have hleft := regrouped_fill (.joinLeft r on outer) _ _ ihl
    have hright := regrouped_fill (.joinRight l.rebuilt on outer) _ _ ihr
    have hon := regrouped_fill (.joinOn l.rebuilt r.rebuilt outer) _ _ ihon
    exact .trans _ _ _ hleft (.trans _ _ _ hright hon)
  | select columns froms condition order limit offset distinct ihc ihf ihw iho =>
    exact regrouped_select ⟨columns, froms, condition, order, limit, offset, distinct⟩ ihc ihf ihw
      iho
  | update t values condition ih =>
    have hcondition := regrouped_condition (.update t values ·)
      (.updateCondition ⟨t, values, condition⟩) (fun _ => rfl) condition ih
    cases condition <;> exact hcondition
  | delete t condition ih =>
    have hcondition := regrouped_condition (.delete t ·) (.deleteCondition ⟨t, condition⟩)
      (fun _ => rfl) condition ih
    cases condition <;> exact hcondition
  | _ => exact .refl _

/--
Clauses that differ in groups around conjunctions that are members of others, and in groups directly
in a group, anywhere and in any number, compile to the same result. So a conjunction compiles as the
one that is built from the same members, and a clause as it is loaded, with conjunctions bare in
others, as what is left when each of them is built.
-/
theorem compile_of_regrouped (q : Quoting) :
    (∀ c d, Relation.EqvGen Regroups c d → c.compile q = d.compile q) ∧
      (∀ o cs, (junction o cs).compile q = (joinedBy o cs).compile q) ∧
      ∀ c, Relation.EqvGen Regroups c c.rebuilt ∧ c.compile q = c.rebuilt.compile q := by
  have hcompile : ∀ c d, Relation.EqvGen Regroups c d → c.compile q = d.compile q := by
    intro c d h
    rw [compile, compile, template_of_regrouped q c d h]
  refine ⟨hcompile, fun o cs => hcompile _ _ (regrouped_joinedBy o cs), fun c => ?_⟩
  have hrebuilt := regrouped_rebuilt c
  exact ⟨hrebuilt, hcompile _ _ hrebuilt⟩

/-- A conjunction bare in another, with every record as an array. -/
def bareText : String :=
  "[\"ExpressionList\", \"And\", "
    ++ "[[\"ExpressionList\", \"Or\", [[\"BindParam\", \"a\", \"x\"], [\"Null\"]]], [\"Null\"]]]"

def andNull (c : Clause) : Clause := .junction .and [c, .null]

theorem compile_of_regrouped_bareText :
    let either : Clause := .junction .or [.bind "a" (.text "x"), .null]
    load bareText = .ok (andNull either) ∧
      (Relation.EqvGen Regroups (andNull either) (andNull (.group (.group either))) ∧
        (andNull either).compile .plain = (andNull (.group (.group either))).compile .plain) ∧
      ((andNull either).rebuilt = andNull (.group either) ∧
        (andNull either).compile .plain = (andNull (.group either)).compile .plain) ∧
      (andNull (.group either)).compile .plain
        = .ok ⟨"(:a_1 OR NULL) AND NULL", ⟨[("a_1", .text "x")]⟩⟩ := by
  intro either
  have hparse : Json.parse bareText = .ok (.array [.string "ExpressionList", .string "And",
      .array [.array [.string "ExpressionList", .string "Or",
          .array [.array [.string "BindParam", .string "a", .string "x"],
            .array [.string "Null"]]],
        .array [.string "Null"]]]) := by cbv
  have hload : load bareText = .ok (andNull either) := by
    rw [load, hparse]
    rfl
  have hwrap : Regroups (andNull either) (andNull (.group either)) :=
    .wrap .and .or [] [.null] [.bind "a" (.text "x"), .null]
  have hmerge : Regroups (andNull (.group (.group either))) (andNull (.group either)) :=
    .within (.member .and [] [.null]) _ _ (.merge either)
  have hgroups := Relation.EqvGen.trans _ _ _ (.rel _ _ hwrap) (.symm _ _ (.rel _ _ hmerge))
  obtain ⟨hcompile, _, hall⟩ := compile_of_regrouped .plain
  have hrebuilt : (andNull either).rebuilt = andNull (.group either) := rfl
  have hsame := (hall (andNull either)).2
  rw [hrebuilt] at hsame
  exact ⟨hload, ⟨hgroups, hcompile _ _ hgroups⟩, ⟨hrebuilt, hsame⟩, rfl⟩

end Clause

end BoundSql
