import BoundSql.Proofs.Clause.Induction
import BoundSql.Statement
import Mathlib.Data.List.Basic

/-!
# Bound values pass through

Changing the bound values of a clause changes the values of the parameters in the same way and
nothing else: rendering never looks at a bound value. Two clauses that differ in bound values only
therefore fail alike, or have the same SQL text and the same parameter keys.
-/

namespace BoundSql

/-! ### Changing values -/

/-- Named values with a function applied to each value. -/
def mapRow (f : Scalar → Scalar) (row : List (String × Scalar)) : List (String × Scalar) :=
  row.map fun e => (e.1, f e.2)

theorem mapRow_names (f : Scalar → Scalar) (row : List (String × Scalar)) :
    (mapRow f row).map (·.1) = row.map (·.1) := by
  rw [mapRow, List.map_map]
  rfl

namespace Piece

def mapValue (f : Scalar → Scalar) : Piece → Piece
  | bind key v => bind key (f v)
  | record column v => record column (f v)
  | p => p

end Piece

def Params.mapValues (f : Scalar → Scalar) (p : Params) : Params := ⟨mapRow f p.entries⟩

def Binder.mapValues (f : Scalar → Scalar) (b : Binder) : Binder :=
  { b with params := b.params.mapValues f }

def Statement.mapValues (f : Scalar → Scalar) (s : Statement) : Statement :=
  ⟨s.sql, s.params.mapValues f⟩

namespace Clause

mutual
/-- The clause with a function applied to every bound value. -/
def mapValues (f : Scalar → Scalar) : Clause → Clause
  | binary l o r => binary (mapValues f l) o (mapValues f r)
  | unary o c m => unary o (mapValues f c) m
  | junction o cs => junction o (mapValuesOfAll f cs)
  | group c => group (mapValues f c)
  | sequence cs separator => sequence (mapValuesOfAll f cs) separator
  | bind key v => bind key (f v)
  | join l r on outer => join (mapValues f l) (mapValues f r) (mapValues f on) outer
  | select columns froms condition order limit offset distinct =>
    select (mapValuesOfAll f columns) (mapValuesOfAll f froms)
      (match condition with
        | some c => some (mapValues f c)
        | none => none)
      (match order with
        | some ⟨terms, separator⟩ => some ⟨mapValuesOfAll f terms, separator⟩
        | none => none)
      limit offset distinct
  | insert t values => insert t (values.map (mapRow f))
  | update t values condition =>
    update t (values.map (mapRow f))
      (match condition with
        | some c => some (mapValues f c)
        | none => none)
  | delete t condition =>
    delete t
      (match condition with
        | some c => some (mapValues f c)
        | none => none)
  | c => c

def mapValuesOfAll (f : Scalar → Scalar) : List Clause → List Clause
  | [] => []
  | c :: cs => mapValues f c :: mapValuesOfAll f cs
end

theorem mapValuesOfAll_eq_map (f : Scalar → Scalar) (cs : List Clause) :
    mapValuesOfAll f cs = cs.map (mapValues f) := by
  induction cs with
  | nil => rfl
  | cons c cs ih => rw [mapValuesOfAll, ih, List.map_cons]

def mapOrder (f : Scalar → Scalar) (o : OrderTerms Clause) : OrderTerms Clause :=
  ⟨o.terms.map (mapValues f), o.separator⟩

theorem mapValues_select (f : Scalar → Scalar) (columns froms : List Clause)
    (condition : Option Clause) (order : Option (OrderTerms Clause))
    (limit offset : Option UInt64) (distinct : Bool) :
    mapValues f (.select columns froms condition order limit offset distinct)
      = .select (columns.map (mapValues f)) (froms.map (mapValues f))
        (condition.map (mapValues f)) (order.map (mapOrder f)) limit offset distinct := by
  cases condition <;> cases order <;>
    simp only [mapValues, mapValuesOfAll_eq_map, mapOrder, Option.map]

theorem mapValues_update (f : Scalar → Scalar) (t : Table)
    (values : Option (List (String × Scalar))) (condition : Option Clause) :
    mapValues f (.update t values condition)
      = .update t (values.map (mapRow f)) (condition.map (mapValues f)) := by
  cases condition <;> simp only [mapValues, Option.map]

theorem mapValues_delete (f : Scalar → Scalar) (t : Table) (condition : Option Clause) :
    mapValues f (.delete t condition) = .delete t (condition.map (mapValues f)) := by
  cases condition <;> simp only [mapValues, Option.map]

@[simp] theorem isGroup_mapValues (f : Scalar → Scalar) (c : Clause) :
    (mapValues f c).isGroup = c.isGroup := by
  cases c with
  | select columns froms condition order limit offset distinct => rw [mapValues_select]; rfl
  | update t values condition => rw [mapValues_update]; rfl
  | delete t condition => rw [mapValues_delete]; rfl
  | _ => rfl

@[simp] theorem isJunction_mapValues (f : Scalar → Scalar) (c : Clause) :
    (mapValues f c).isJunction = c.isJunction := by
  cases c with
  | select columns froms condition order limit offset distinct => rw [mapValues_select]; rfl
  | update t values condition => rw [mapValues_update]; rfl
  | delete t condition => rw [mapValues_delete]; rfl
  | _ => rfl

theorem columnRefs_mapValues (f : Scalar → Scalar) (c : Clause) :
    columnRefs (mapValues f c) = columnRefs c := by
  induction c using Clause.induct with
  | binary l o r ihl ihr => simp only [mapValues, columnRefs, ihl, ihr]
  | unary o c m ih => simp only [mapValues, columnRefs, ih]
  | group c ih => simp only [mapValues, columnRefs, ih]
  | junction o cs ih =>
    simp only [mapValues, columnRefs, mapValuesOfAll_eq_map, columnRefsOfAll_eq_flatMap,
      List.flatMap_map]
    exact List.flatMap_congr ih
  | sequence cs separator ih =>
    simp only [mapValues, columnRefs, mapValuesOfAll_eq_map, columnRefsOfAll_eq_flatMap,
      List.flatMap_map]
    exact List.flatMap_congr ih
  | select columns froms condition order limit offset distinct => rw [mapValues_select]; rfl
  | update t values condition => rw [mapValues_update]; rfl
  | delete t condition => rw [mapValues_delete]; rfl
  | _ => rfl

theorem ownersOf_mapValues (f : Scalar → Scalar) (columns : List Clause) :
    ownersOf (columns.map (mapValues f)) = ownersOf columns := by
  simp only [ownersOf, columnRefsOfAll_eq_flatMap, List.flatMap_map, columnRefs_mapValues]

end Clause

/-! ### Templates -/

namespace Template

def mapValues (f : Scalar → Scalar) (t : Template) : Template := t.map (Piece.mapValue f)

theorem mapValues_join (f : Scalar → Scalar) (separator : String) (ts : List Template) :
    mapValues f (join separator ts) = join separator (ts.map (mapValues f)) := by
  induction ts with
  | nil => rfl
  | cons t ts ih =>
    cases ts with
    | nil => rfl
    | cons u us =>
      simp only [List.map_cons, join] at ih ⊢
      rw [mapValues, List.map_append, List.map_cons, ← ih]
      rfl

theorem mapValues_parenthesized (f : Scalar → Scalar) (t : Template) :
    mapValues f (parenthesized t) = parenthesized (mapValues f t) := by
  simp only [mapValues, parenthesized, List.map_append, List.map_cons, List.map_nil,
    List.cons_append, Piece.mapValue]

theorem mapValues_fromTemplate (f : Scalar → Scalar) (froms : List Template) :
    mapValues f (fromTemplate froms) = fromTemplate (froms.map (mapValues f)) := by
  cases froms with
  | nil => rfl
  | cons t ts => exact congrArg (.text " FROM " :: ·) (mapValues_join f ", " (t :: ts))

end Template

theorem assignments_mapRow (q : Quoting) (f : Scalar → Scalar) (t : Table)
    (values : Option (List (String × Scalar))) :
    assignments q t (values.map (mapRow f))
      = (assignments q t values).map fun set => set.map fun a => (a.1, a.2.mapValue f) := by
  cases values with
  | none =>
    simp only [assignments, Option.map_none, Except.map, List.map_map]
    rfl
  | some row =>
    have hempty : (mapRow f row).isEmpty = row.isEmpty := by
      rw [mapRow]
      cases row <;> rfl
    simp only [assignments, Option.map_some, mapRow_names, hempty]
    split
    · rfl
    · split
      · rfl
      · simp only [Except.map, mapRow, List.map_map]
        rfl

theorem insertTemplate_mapRow (q : Quoting) (f : Scalar → Scalar) (t : Table)
    (values : Option (List (String × Scalar))) :
    insertTemplate q t (values.map (mapRow f)) = (insertTemplate q t values).mapValues f := by
  rw [insertTemplate, insertTemplate, assignments_mapRow]
  cases assignments q t values with
  | error cause => rfl
  | ok set =>
    have hpieces := Template.mapValues_join f ", " (set.map fun a => [a.2])
    simp only [Template.mapValues, List.map_map] at hpieces
    simp only [Except.map, Template.mapValues, List.map_append, List.map_cons, List.map_map,
      hpieces]
    rfl

theorem updateTemplate_mapRow (q : Quoting) (f : Scalar → Scalar) (t : Table)
    (values : Option (List (String × Scalar))) :
    updateTemplate q t (values.map (mapRow f)) = (updateTemplate q t values).mapValues f := by
  rw [updateTemplate, updateTemplate, assignments_mapRow]
  cases assignments q t values with
  | error cause => rfl
  | ok set =>
    have hpieces := Template.mapValues_join f ", "
      (set.map fun a => [.text (a.1 ++ " = "), a.2])
    simp only [Template.mapValues, List.map_map] at hpieces
    simp only [Except.map, Template.mapValues, List.map_cons, List.map_map, hpieces]
    rfl

namespace Clause

theorem map_template_mapValues (q : Quoting) (f : Scalar → Scalar) (cs : List Clause)
    (ih : ∀ c ∈ cs, template q (mapValues f c) = (template q c).mapValues f) :
    (cs.map (mapValues f)).map (template q)
      = (cs.map (template q)).map (Template.mapValues f) := by
  rw [List.map_map, List.map_map]
  exact List.map_congr_left ih

theorem memberTemplate_mapValues (q : Quoting) (f : Scalar → Scalar) (c : Clause)
    (ih : template q (mapValues f c) = (template q c).mapValues f) :
    memberTemplate q (mapValues f c) = (memberTemplate q c).mapValues f := by
  rw [memberTemplate, memberTemplate, isJunction_mapValues, ih]
  split
  · exact (Template.mapValues_parenthesized f _).symm
  · rfl

theorem columnsTemplate_mapValues (q : Quoting) (f : Scalar → Scalar) (columns : List Clause)
    (ih : ∀ c ∈ columns, template q (mapValues f c) = (template q c).mapValues f) :
    columnsTemplate q (columns.map (mapValues f)) = (columnsTemplate q columns).mapValues f := by
  cases columns with
  | nil => rfl
  | cons c cs =>
    have hjoin := Template.mapValues_join f ", " ((c :: cs).map (template q))
    rw [← map_template_mapValues q f (c :: cs) ih] at hjoin
    exact hjoin.symm

theorem fromsTemplate_mapValues (q : Quoting) (f : Scalar → Scalar) (columns froms : List Clause)
    (ih : ∀ c ∈ froms, template q (mapValues f c) = (template q c).mapValues f) :
    fromsTemplate q (columns.map (mapValues f)) (froms.map (mapValues f))
      = (fromsTemplate q columns froms).mapValues f := by
  cases froms with
  | nil =>
    simp only [fromsTemplate, ownersOf_mapValues, List.map_nil, List.isEmpty_nil, ite_true,
      Template.mapValues_fromTemplate, List.map_map]
    rfl
  | cons c cs =>
    have hfroms := Template.mapValues_fromTemplate f ((c :: cs).map (template q))
    rw [← map_template_mapValues q f (c :: cs) ih] at hfroms
    exact hfroms.symm

theorem whereTemplate_mapValues (q : Quoting) (f : Scalar → Scalar) (condition : Option Clause)
    (ih : ∀ c ∈ condition, template q (mapValues f c) = (template q c).mapValues f) :
    whereTemplate q (condition.map (mapValues f)) = (whereTemplate q condition).mapValues f := by
  cases condition with
  | none => rfl
  | some c => exact congrArg (.text " WHERE " :: ·) (ih c rfl)

theorem orderTemplate_mapValues (q : Quoting) (f : Scalar → Scalar)
    (order : Option (OrderTerms Clause))
    (ih : ∀ o ∈ order, ∀ c ∈ OrderTerms.terms o,
      template q (mapValues f c) = (template q c).mapValues f) :
    orderTemplate q (order.map (mapOrder f)) = (orderTemplate q order).mapValues f := by
  rcases order with _ | ⟨terms, separator⟩
  · rfl
  · cases terms with
    | nil => rfl
    | cons c cs =>
      have hjoin := Template.mapValues_join f separator ((c :: cs).map (template q))
      rw [← map_template_mapValues q f (c :: cs) (ih _ rfl)] at hjoin
      exact congrArg (.text " ORDER BY " :: ·) hjoin.symm

theorem template_mapValues (q : Quoting) (f : Scalar → Scalar) (c : Clause) :
    template q (mapValues f c) = (template q c).mapValues f := by
  induction c using Clause.induct with
  | table t => rfl
  | named name => rfl
  | aliased a => rfl
  | column c => rfl
  | null => rfl
  | bind key v => rfl
  | binary l o r ihl ihr =>
    simp only [mapValues, template, ihl, ihr, Template.mapValues, List.map_append, List.map_cons,
      Piece.mapValue]
  | unary o c m ih =>
    have ho : (operatorText o).mapValues f = operatorText o := by cases o <;> rfl
    have hm : (modifierText m).mapValues f = modifierText m := by cases m <;> rfl
    rw [mapValues, template, template, ih]
    nth_rewrite 1 [← ho, ← hm]
    simp only [Template.mapValues, List.map_append]
  | junction o cs ih =>
    cases cs with
    | nil => rfl
    | cons c cs =>
      have hmembers : ((c :: cs).map (mapValues f)).map (memberTemplate q)
          = ((c :: cs).map (memberTemplate q)).map (Template.mapValues f) := by
        rw [List.map_map, List.map_map]
        exact List.map_congr_left fun d hd => memberTemplate_mapValues q f d (ih d hd)
      have hjoin := Template.mapValues_join f (" " ++ o.symbol ++ " ")
        ((c :: cs).map (memberTemplate q))
      rw [← hmembers, ← memberTemplates_eq_map, ← memberTemplates_eq_map,
        ← mapValuesOfAll_eq_map] at hjoin
      exact hjoin.symm
  | group c ih =>
    simp only [mapValues, template, isGroup_mapValues, ih]
    split
    · rfl
    · exact (Template.mapValues_parenthesized f _).symm
  | sequence cs separator ih =>
    simp only [mapValues, template, templates_eq_map, mapValuesOfAll_eq_map,
      Template.mapValues_join, map_template_mapValues q f cs ih]
  | join l r on outer ihl ihr ihon =>
    simp only [mapValues, template, ihl, ihr, ihon, Template.mapValues, List.map_append,
      List.map_cons, Piece.mapValue]
  | select columns froms condition order limit offset distinct ihc ihf ihw iho =>
    rw [mapValues_select, template_select, template_select, columnsTemplate_mapValues q f _ ihc,
      fromsTemplate_mapValues q f columns froms ihf, whereTemplate_mapValues q f condition ihw,
      orderTemplate_mapValues q f order iho]
    simp only [Template.mapValues, List.map_append, List.map_cons, List.map_nil, Piece.mapValue]
  | insert t values => exact insertTemplate_mapRow q f t values
  | update t values condition ih =>
    rw [mapValues_update, template_update, template_update, updateTemplate_mapRow,
      whereTemplate_mapValues q f condition ih]
    exact (List.map_append ..).symm
  | delete t condition ih =>
    rw [mapValues_delete, template_delete, template_delete,
      whereTemplate_mapValues q f condition ih]
    rfl

end Clause

/-! ### Filling -/

theorem put_mapRow (f : Scalar → Scalar) (entries : List (String × Scalar)) (key : String)
    (v : Scalar) :
    Params.put (mapRow f entries) key (f v) = mapRow f (Params.put entries key v) := by
  induction entries with
  | nil => rfl
  | cons e entries ih =>
    simp only [mapRow, List.map_cons, Params.put] at ih ⊢
    split
    · rfl
    · rw [ih]
      rfl

namespace Binder

theorem bind_mapValues (f : Scalar → Scalar) (b : Binder) (key : String) (v : Scalar) :
    (b.mapValues f).bind key (f v) = ((b.bind key v).1, (b.bind key v).2.mapValues f) := by
  simp only [bind, mapValues, Params.mapValues, Params.insert, nextNumber, counter, put_mapRow]

theorem reserve_mapValues (f : Scalar → Scalar) (b : Binder) (name : String) :
    (b.mapValues f).reserve name = (b.reserve name).map (mapValues f) := by
  by_cases htaken : name ∈ b.taken
  · simp only [reserve, mapValues, htaken, ite_true]
    rfl
  · simp only [reserve, mapValues, htaken, ite_false]
    rfl

theorem record_mapValues (f : Scalar → Scalar) (b : Binder) (name : String) (v : Scalar) :
    (b.mapValues f).record name (f v) = (b.record name v).map (mapValues f) := by
  simp only [record, reserve_mapValues]
  cases b.reserve name with
  | error cause => rfl
  | ok b =>
    simp only [Except.map, mapValues, Params.mapValues, Params.insert, put_mapRow]

end Binder

namespace Template

theorem fillPiece_mapValues (f : Scalar → Scalar) (b : Binder) (p : Piece) :
    fillPiece (b.mapValues f) (p.mapValue f)
      = (fillPiece b p).map fun r => (r.1, r.2.mapValues f) := by
  cases p with
  | text s => rfl
  | refuse cause => rfl
  | bind key v =>
    simp only [Piece.mapValue, fillPiece, Binder.bind_mapValues]
    rfl
  | record column v =>
    simp only [Piece.mapValue, fillPiece, Binder.record_mapValues]
    cases b.record column v <;> rfl
  | reserve column =>
    simp only [Piece.mapValue, fillPiece, Binder.reserve_mapValues]
    cases b.reserve column <;> rfl

theorem fill_mapValues (f : Scalar → Scalar) (b : Binder) (t : Template) :
    fill (b.mapValues f) (mapValues f t) = (fill b t).map fun r => (r.1, r.2.mapValues f) := by
  induction t generalizing b with
  | nil => rfl
  | cons p t ih =>
    simp only [mapValues, List.map_cons, fill, fillPiece_mapValues] at ih ⊢
    cases fillPiece b p with
    | error cause => rfl
    | ok first =>
      simp only [Except.map, ih]
      cases fill first.2 t <;> rfl

end Template

namespace Clause

/-- Other values in a clause are other values in its parameters. -/
theorem compile_mapValues (q : Quoting) (f : Scalar → Scalar) (c : Clause) :
    (c.mapValues f).compile q = (c.compile q).map (Statement.mapValues f) := by
  have hfill : Template.fill {} (template q (c.mapValues f))
      = (Template.fill {} (c.template q)).map fun r => (r.1, r.2.mapValues f) := by
    rw [template_mapValues]
    exact Template.fill_mapValues f {} (c.template q)
  rw [compile, compile, hfill]
  cases Template.fill {} (c.template q) <;> rfl

/-- Two clauses that differ in bound values only. -/
def SameButValues (c d : Clause) : Prop :=
  c.mapValues (fun _ => .null) = d.mapValues (fun _ => .null)

theorem keys_mapValues (f : Scalar → Scalar) (p : Params) : (p.mapValues f).keys = p.keys :=
  mapRow_names f p.entries

/--
Clauses that differ in bound values only fail with the same error, or render to the same SQL text
with the same keys in the same order.
-/
theorem compile_of_sameButValues (q : Quoting) (c d : Clause) (h : SameButValues c d) :
    (∃ cause, c.compile q = .error cause ∧ d.compile q = .error cause) ∨
      ∃ s t, c.compile q = .ok s ∧ d.compile q = .ok t ∧ s.sql = t.sql ∧
        s.params.keys = t.params.keys := by
  -- Both compile to the same statement once every value is null.
  have herased : (c.compile q).map (Statement.mapValues fun _ => .null)
      = (d.compile q).map (Statement.mapValues fun _ => .null) := by
    rw [← compile_mapValues, ← compile_mapValues, h]
  cases hc : c.compile q with
  | error cause =>
    cases hd : d.compile q with
    | error cause' =>
      simp only [hc, hd, Except.map, Except.error.injEq] at herased
      exact Or.inl ⟨cause, rfl, by rw [herased]⟩
    | ok t => simp [hc, hd, Except.map] at herased
  | ok s =>
    cases hd : d.compile q with
    | error cause => simp [hc, hd, Except.map] at herased
    | ok t =>
      simp only [hc, hd, Except.map, Except.ok.injEq, Statement.mapValues,
        Statement.mk.injEq] at herased
      refine Or.inr ⟨s, t, rfl, rfl, herased.1, ?_⟩
      rw [← keys_mapValues (fun _ => .null) s.params, herased.2, keys_mapValues]

/-- An update of games with two values to bind. -/
def renameGame (name title : Scalar) : Clause :=
  .update ⟨"games", [⟨"name", .text, {}⟩]⟩ (some [("name", name)])
    (some (.junction .or [.binary (.column { name := "name" }) .like (.bind "name" title),
      .binary (.column { name := "name" }) .is .null]))

/-- A title that reads as SQL binds like one that is not there. -/
theorem compile_of_sameButValues_renameGame :
    SameButValues (renameGame (.text "Go") (.text ":name OR 1 = 1")) (renameGame .null (.int 0)) ∧
      ((∃ cause, (renameGame (.text "Go") (.text ":name OR 1 = 1")).compile .plain = .error cause ∧
          (renameGame .null (.int 0)).compile .plain = .error cause) ∨
        ∃ s t, (renameGame (.text "Go") (.text ":name OR 1 = 1")).compile .plain = .ok s ∧
          (renameGame .null (.int 0)).compile .plain = .ok t ∧ s.sql = t.sql ∧
          s.params.keys = t.params.keys) :=
  ⟨rfl, compile_of_sameButValues .plain _ _ rfl⟩

end Clause

end BoundSql
