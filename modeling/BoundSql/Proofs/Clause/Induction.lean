import BoundSql.Template

/-!
# Induction over clauses

A clause holds other clauses in lists, options and order terms. `Clause.induct` is induction over
all of them at once, with one case for each node; the walks over lists of clauses are maps, and
the template of a statement is the sequence of its named parts.
-/

namespace BoundSql.Clause

/-- Induction over clauses: a case may use the statement of every clause directly below. -/
@[elab_as_elim]
theorem induct {motive : Clause → Prop}
    (table : ∀ t, motive (.table t)) (named : ∀ name, motive (.named name))
    (aliased : ∀ a, motive (.aliased a)) (column : ∀ c, motive (.column c))
    (binary : ∀ l o r, motive l → motive r → motive (.binary l o r))
    (unary : ∀ o c m, motive c → motive (.unary o c m))
    (junction : ∀ o cs, (∀ c ∈ cs, motive c) → motive (.junction o cs))
    (group : ∀ c, motive c → motive (.group c))
    (sequence : ∀ cs separator, (∀ c ∈ cs, motive c) → motive (.sequence cs separator))
    (bind : ∀ key v, motive (.bind key v)) (null : motive .null)
    (join : ∀ l r on outer, motive l → motive r → motive on → motive (.join l r on outer))
    (select : ∀ columns froms condition order limit offset distinct,
      (∀ c ∈ columns, motive c) → (∀ c ∈ froms, motive c) → (∀ c ∈ condition, motive c) →
      (∀ o ∈ order, ∀ c ∈ OrderTerms.terms o, motive c) →
      motive (.select columns froms condition order limit offset distinct))
    (insert : ∀ t values, motive (.insert t values))
    (update : ∀ t values condition, (∀ c ∈ condition, motive c) →
      motive (.update t values condition))
    (delete : ∀ t condition, (∀ c ∈ condition, motive c) → motive (.delete t condition))
    (c : Clause) : motive c := by
  refine @Clause.rec motive (fun cs => ∀ c ∈ cs, motive c) (fun o => ∀ c ∈ o, motive c)
    (fun o => ∀ t ∈ o, ∀ c ∈ OrderTerms.terms t, motive c)
    (fun t => ∀ c ∈ OrderTerms.terms t, motive c)
    table named aliased column binary unary junction group sequence bind null join select insert
    update delete ?_ ?_ ?_ ?_ ?_ ?_ ?_ c
  · intro c hc
    exact absurd hc List.not_mem_nil
  · intro d ds hd hds c hc
    rcases List.mem_cons.mp hc with hc | hc
    · rw [hc]
      exact hd
    · exact hds c hc
  · intro c hc
    cases hc
  · intro d hd c hc
    cases hc
    exact hd
  · intro t ht
    cases ht
  · intro t ht u hu
    cases hu
    exact ht
  · intro terms separator hterms
    exact hterms

/-! ### Walks over lists -/

/-- A member of a conjunction as it is written: another conjunction in parentheses. -/
def memberTemplate (q : Quoting) (c : Clause) : Template :=
  if c.isJunction then Template.parenthesized (template q c) else template q c

theorem templates_eq_map (q : Quoting) (cs : List Clause) :
    templates q cs = cs.map (template q) := by
  induction cs with
  | nil => rfl
  | cons c cs ih => rw [templates, ih, List.map_cons]

theorem memberTemplates_eq_map (q : Quoting) (cs : List Clause) :
    memberTemplates q cs = cs.map (memberTemplate q) := by
  induction cs with
  | nil => rfl
  | cons c cs ih => rw [memberTemplates, ih, List.map_cons, memberTemplate]

theorem columnRefsOfAll_eq_flatMap (cs : List Clause) :
    columnRefsOfAll cs = cs.flatMap columnRefs := by
  induction cs with
  | nil => rfl
  | cons c cs ih => rw [columnRefsOfAll, ih, List.flatMap_cons]

/-! ### Parts of statements -/

/-- The select list. -/
def columnsTemplate (q : Quoting) (columns : List Clause) : Template :=
  if columns.isEmpty then [.text "*"] else Template.join ", " (columns.map (template q))

/-- What is selected from: the given clauses, or the owners of the columns. -/
def fromsTemplate (q : Quoting) (columns froms : List Clause) : Template :=
  if froms.isEmpty then fromTemplate ((ownersOf columns).map fun o => [.text (ownerText q o)])
  else fromTemplate (froms.map (template q))

/-- The condition of a statement. -/
def whereTemplate (q : Quoting) : Option Clause → Template
  | some c => .text " WHERE " :: template q c
  | none => []

/-- The order of a SELECT. -/
def orderTemplate (q : Quoting) : Option (OrderTerms Clause) → Template
  | some o =>
    if o.terms.isEmpty then []
    else .text " ORDER BY " :: Template.join o.separator (o.terms.map (template q))
  | none => []

theorem template_select (q : Quoting) (columns froms : List Clause) (condition : Option Clause)
    (order : Option (OrderTerms Clause)) (limit offset : Option UInt64) (distinct : Bool) :
    template q (.select columns froms condition order limit offset distinct)
      = .text (if distinct then "SELECT DISTINCT " else "SELECT ")
        :: columnsTemplate q columns ++ fromsTemplate q columns froms
        ++ whereTemplate q condition ++ orderTemplate q order
        ++ [.text (limitText limit offset)] := by
  cases condition <;> cases order <;>
    simp only [template, templates_eq_map, columnsTemplate, fromsTemplate, whereTemplate,
      orderTemplate]

theorem template_update (q : Quoting) (t : Table) (values : Option (List (String × Scalar)))
    (condition : Option Clause) :
    template q (.update t values condition)
      = updateTemplate q t values ++ whereTemplate q condition := by
  cases condition <;> simp only [template, whereTemplate]

theorem template_delete (q : Quoting) (t : Table) (condition : Option Clause) :
    template q (.delete t condition)
      = .text ("DELETE FROM " ++ q.quote t.name) :: whereTemplate q condition := by
  cases condition <;> simp only [template, whereTemplate]

end BoundSql.Clause
