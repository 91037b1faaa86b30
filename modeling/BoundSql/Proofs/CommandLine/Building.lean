import BoundSql.CommandLine.Run
import BoundSql.Proofs.CommandLine.Arguments
import BoundSql.Proofs.Filter.Rendering

/-!
# Building the statement of a command

A command builds its statement when all its texts can be read and its source declares the columns
that they look up. The statement is then made of what was read: the columns that the command lists,
its filters as the condition, its order terms, and its assignments as the values.
-/

namespace BoundSql

/-! ### Reading lists -/

theorem mapM_eq_ok_iff {ε α β : Type} (read : α → Except ε β) (xs : List α) (ys : List β) :
    xs.mapM read = .ok ys ↔ List.Forall₂ (fun x y => read x = .ok y) xs ys := by
  induction xs generalizing ys with
  | nil =>
    rw [List.mapM_nil, pure_eq_ok, List.forall₂_nil_left_iff]
    exact eq_comm
  | cons x xs ih =>
    simp only [List.mapM_cons, bind_eq_ok, pure_eq_ok, ih, List.forall₂_cons_left_iff]
    constructor
    · rintro ⟨y, hy, rest, hrest, rfl⟩
      exact ⟨y, rest, hy, hrest, rfl⟩
    · rintro ⟨y, rest, hy, hrest, rfl⟩
      exact ⟨y, hy, rest, hrest, rfl⟩

theorem eq_nil_of_mapM {ε α β : Type} (read : α → Except ε β) (xs : List α) (ys : List β)
    (hnone : xs = []) (h : xs.mapM read = .ok ys) : ys = [] := by
  rw [hnone, List.mapM_nil, pure_eq_ok] at h
  exact h.symm

/-- Reading and then using one text after the other comes to reading them all first. -/
theorem mapM_bind_eq_ok {ε α β γ : Type} (read : α → Except ε β) (use : β → Except ε γ)
    (result : β → γ) (P : β → Prop) (huse : ∀ y z, use y = .ok z → P y ∧ z = result y)
    (xs : List α) (zs : List γ) (h : xs.mapM (fun x => read x >>= use) = .ok zs) :
    ∃ ys, xs.mapM read = .ok ys ∧ (∀ y ∈ ys, P y) ∧ zs = ys.map result := by
  induction xs generalizing zs with
  | nil =>
    rw [List.mapM_nil, pure_eq_ok] at h
    exact ⟨[], rfl, by simp, h.symm⟩
  | cons x xs ih =>
    simp only [List.mapM_cons, bind_eq_ok, pure_eq_ok] at h
    obtain ⟨z, ⟨y, hy, hz⟩, rest, hrest, rfl⟩ := h
    obtain ⟨ys, hys, hall, rfl⟩ := ih rest hrest
    obtain ⟨hP, rfl⟩ := huse y z hz
    exact ⟨y :: ys, by rw [List.mapM_cons, hy, hys]; rfl, List.forall_mem_cons.mpr ⟨hP, hall⟩, rfl⟩

/-- Adding what is read, one after the other, comes to reading it all first. -/
theorem foldlM_eq_ok {ε α β σ : Type} (read : α → Except ε β) (add : σ → β → σ) (xs : List α)
    (s s' : σ) (h : xs.foldlM (fun s x => do return add s (← read x)) s = .ok s') :
    ∃ ys, xs.mapM read = .ok ys ∧ s' = ys.foldl add s := by
  induction xs generalizing s with
  | nil => exact ⟨[], rfl, ((pure_eq_ok s s').mp h).symm⟩
  | cons x xs ih =>
    simp only [List.foldlM_cons, bind_eq_ok, pure_eq_ok] at h
    obtain ⟨_, ⟨y, hy, rfl⟩, h⟩ := h
    obtain ⟨ys, hys, rfl⟩ := ih (add s y) h
    exact ⟨y :: ys, by rw [List.mapM_cons, hy, hys]; rfl, rfl⟩

/-! ### Statements step by step -/

theorem Select.foldl_where (x : Select) (cs : List Clause) :
    cs.foldl Select.where x = { x with condition := Clause.conjoinAll x.condition cs } := by
  induction cs generalizing x with
  | nil => rfl
  | cons c cs ih => exact ih (x.where c)

theorem Update.foldl_where (u : Update) (cs : List Clause) :
    cs.foldl Update.where u = { u with condition := Clause.conjoinAll u.condition cs } := by
  induction cs generalizing u with
  | nil => rfl
  | cons c cs ih => exact ih (u.where c)

theorem Delete.foldl_where (d : Delete) (cs : List Clause) :
    cs.foldl Delete.where d = { d with condition := Clause.conjoinAll d.condition cs } := by
  induction cs generalizing d with
  | nil => rfl
  | cons c cs ih => exact ih (d.where c)

/-- Terms to order by, if there are any. -/
def orderOf (terms : List Clause) : Option (OrderTerms Clause) :=
  if terms.isEmpty then none else some ⟨terms, ","⟩

theorem Select.foldl_orderBy (x : Select) (terms : List Clause) (hx : x.order = none) :
    terms.foldl Select.orderBy x = { x with order := orderOf terms } := by
  have hmore : ∀ (before terms : List Clause),
      terms.foldl Select.orderBy { x with order := some ⟨before, ","⟩ }
        = { x with order := some ⟨before ++ terms, ","⟩ } := by
    intro before terms
    induction terms generalizing before with
    | nil => rw [List.append_nil]; rfl
    | cons c terms ih =>
      have hnext := ih (before ++ [c])
      rw [List.append_assoc] at hnext
      exact hnext
  cases terms with
  | nil => rw [orderOf, List.isEmpty_nil, if_pos rfl, ← hx]; rfl
  | cons c terms =>
    rw [List.foldl_cons, orderBy, hx]
    exact hmore [c] terms

/-! ### Columns of a source -/

def Source.refer (s : Source) (name : String) : ColumnRef := { name := name, source := some s }

theorem Source.column_eq_ok (s : Source) (name : String) (c : ColumnRef)
    (h : s.column name = .ok c) : s.base.hasColumn name = true ∧ c = s.refer name := by
  rw [column] at h
  split at h
  · next hdeclared => exact ⟨hdeclared, (Except.ok.inj h).symm⟩
  · cases h

theorem Filter.toClause_eq_ok (s : Source) (f : Filter) (c : Clause) (h : f.toClause s = .ok c) :
    s.base.hasColumn f.column = true ∧ c = f.comparisonOn s := by
  simp only [toClause, bind_eq_ok, pure_eq_ok] at h
  obtain ⟨r, hr, rfl⟩ := h
  obtain ⟨hdeclared, rfl⟩ := s.column_eq_ok f.column r hr
  exact ⟨hdeclared, rfl⟩

/-- The term that an order term on a source stands for. -/
def OrderTerm.termOn (s : Source) (o : OrderTerm) : Clause :=
  match o.direction with
  | some .descending => (s.refer o.column).descending
  | some .ascending => (s.refer o.column).ascending
  | none => .column (s.refer o.column)

theorem OrderTerm.toClause_eq_ok (s : Source) (o : OrderTerm) (c : Clause)
    (h : o.toClause s = .ok c) :
    s.base.hasColumn o.column = true ∧ c = o.termOn s := by
  rw [toClause, bind_eq_ok] at h
  obtain ⟨r, hr, h⟩ := h
  obtain ⟨hdeclared, rfl⟩ := s.column_eq_ok o.column r hr
  refine ⟨hdeclared, ?_⟩
  obtain ⟨column, direction⟩ := o
  cases direction with
  | none => exact ((pure_eq_ok _ _).mp h).symm
  | some direction => cases direction <;> exact ((pure_eq_ok _ _).mp h).symm

theorem Source.selectColumns_eq_ok (s : Source) (names : List String) (x : Select)
    (h : s.selectColumns names = .ok x) :
    (∀ name ∈ names, s.base.hasColumn name = true) ∧
      x = { columns := (names.map s.refer).map .column } := by
  simp only [selectColumns, bind_eq_ok, pure_eq_ok] at h
  obtain ⟨items, hitems, rfl⟩ := h
  have huse : ∀ name item, (do return Clause.column (← s.column name)) = Except.ok item →
      s.base.hasColumn name = true ∧ item = .column (s.refer name) := by
    intro name item hitem
    simp only [bind_eq_ok, pure_eq_ok] at hitem
    obtain ⟨c, hc, rfl⟩ := hitem
    obtain ⟨hdeclared, rfl⟩ := s.column_eq_ok name c hc
    exact ⟨hdeclared, rfl⟩
  obtain ⟨names', hnames, hall, rfl⟩ :=
    mapM_bind_eq_ok pure _ _ _ huse names items (by simpa only [pure_bind] using hitems)
  obtain rfl : names = names' := by
    have hpure := List.mapM_pure (m := Except Error) (l := names) (f := id)
    rw [List.map_id] at hpure
    exact Except.ok.inj (hpure.symm.trans hnames)
  have hlist : names.map (fun name => Clause.column (s.refer name))
      = (names.map s.refer).map .column := by rw [List.map_map]; rfl
  rw [hlist, Select.ofItems_columns]
  exact ⟨hall, rfl⟩

namespace CommandLine

/-! ### Readings -/

/-- What the texts among the arguments of a command are read as. -/
structure Readings where
  filters : List Filter
  order : List OrderTerm
  values : List ValueAssignment

structure Reads (a : StatementArguments) (r : Readings) : Prop where
  filters : a.filters.mapM Filter.parse = .ok r.filters
  order : a.order.mapM OrderTerm.parse = .ok r.order
  values : a.values.mapM ValueAssignment.parse = .ok r.values

/-- The table declares the columns that are looked up in it. -/
structure Resolved (t : Table) (a : StatementArguments) (r : Readings) : Prop where
  columns : ∀ name ∈ a.columns, t.hasColumn name = true
  filters : ∀ f ∈ r.filters, t.hasColumn f.column = true
  order : ∀ o ∈ r.order, t.hasColumn o.column = true

/-- The columns that a SELECT lists: all of them if none is given. -/
def listedColumns (t : Table) (a : StatementArguments) : List String :=
  if a.columns.isEmpty then t.columnNames else a.columns

def pairsOf (values : List ValueAssignment) : List (String × Scalar) :=
  values.map fun v => (v.column, v.value)

/-- The values that assignments come to: none is every column. -/
def givenOf (values : List ValueAssignment) : Option (List (String × Scalar)) :=
  if values.isEmpty then none else some (setValues none (pairsOf values))

def conditionOf (s : Source) (filters : List Filter) : Option Clause :=
  Clause.conjoinAll none (filters.map (Filter.comparisonOn s))

/-- The statement of a command on a source. -/
def builtClause (s : Source) (r : Readings) : Command → Clause
  | .select _ a =>
    .select (((listedColumns s.base a).map s.refer).map .column) [] (conditionOf s r.filters)
      (orderOf (r.order.map (OrderTerm.termOn s))) a.limit a.offset a.distinct
  | .insert .. => .insert s.base (givenOf r.values)
  | .update .. => .update s.base (givenOf r.values) (conditionOf s r.filters)
  | .delete .. => .delete s.base (conditionOf s r.filters)
  | _ => .null

theorem conditions_eq_ok (s : Source) (texts : List String) (cs : List Clause)
    (h : texts.mapM (condition s) = .ok cs) :
    ∃ fs, texts.mapM Filter.parse = .ok fs ∧ (∀ f ∈ fs, s.base.hasColumn f.column = true) ∧
      cs = fs.map (Filter.comparisonOn s) :=
  mapM_bind_eq_ok Filter.parse (fun f => f.toClause s) _ _ (Filter.toClause_eq_ok s) texts cs h

theorem orderTerms_eq_ok (s : Source) (texts : List String) (cs : List Clause)
    (h : texts.mapM (orderTerm s) = .ok cs) :
    ∃ os, texts.mapM OrderTerm.parse = .ok os ∧ (∀ o ∈ os, s.base.hasColumn o.column = true) ∧
      cs = os.map (OrderTerm.termOn s) :=
  mapM_bind_eq_ok OrderTerm.parse (fun o => o.toClause s) _ _ (OrderTerm.toClause_eq_ok s) texts cs
    h

theorem assignments_eq_ok (texts : List String) (pairs : List (String × Scalar))
    (h : texts.mapM assignment = .ok pairs) :
    ∃ values, texts.mapM ValueAssignment.parse = .ok values ∧ pairs = pairsOf values := by
  obtain ⟨values, hvalues, _, hpairs⟩ := mapM_bind_eq_ok ValueAssignment.parse
    (fun a => pure (a.column, a.value)) (fun v => (v.column, v.value)) (fun _ => True)
    (fun v pair hpair => ⟨trivial, ((pure_eq_ok _ _).mp hpair).symm⟩) texts pairs h
  exact ⟨values, hvalues, hpairs⟩

/-! ### Statements -/

theorem sourceOf_eq_ok (t : Table) (a : StatementArguments) (s : Source)
    (h : sourceOf t a = .ok s) : s.base = t ∧ s.name = a.aliased.getD t.name := by
  rw [sourceOf] at h
  split at h
  · next name hname =>
    obtain ⟨b, hb, rfl⟩ := (map_eq_ok _ _ _).mp h
    rw [Alias.declare, mapError_eq_ok, Alias.checked] at hb
    split at hb
    · obtain rfl := Except.ok.inj hb
      exact ⟨rfl, by rw [hname]; rfl⟩
    · cases hb
  · next hnone =>
    obtain rfl := Except.ok.inj h
    exact ⟨rfl, by rw [hnone]; rfl⟩

/-- The SELECT of a source before its conditions and its order. -/
def listed (s : Source) (a : StatementArguments) : Except Error Select :=
  if a.columns.isEmpty then .ok s.select else s.selectColumns a.columns

theorem listed_eq_ok (s : Source) (a : StatementArguments) (x : Select)
    (h : listed s a = .ok x) :
    (∀ name ∈ a.columns, s.base.hasColumn name = true) ∧
      x = { columns := ((listedColumns s.base a).map s.refer).map .column } := by
  unfold listedColumns
  rw [listed] at h
  split at h
  · next hempty =>
    obtain rfl := Except.ok.inj h
    rw [if_pos hempty, Clause.select_source, List.isEmpty_iff.mp hempty]
    exact ⟨by simp, rfl⟩
  · next hsome =>
    rw [if_neg hsome]
    exact s.selectColumns_eq_ok a.columns x h

theorem buildSelect_eq (t : Table) (a : StatementArguments) :
    buildSelect t a = sourceOf t a >>= fun s => listed s a >>= fun x =>
      a.filters.foldlM (fun x text => do return x.where (← condition s text)) x >>= fun x =>
        a.order.foldlM (fun x text => do return x.orderBy (← orderTerm s text)) x >>= fun x =>
          pure { x with limit := a.limit, offset := a.offset, distinct := a.distinct } := by
  unfold buildSelect listed
  cases a.columns.isEmpty <;> rfl

/-- The clause is what a command makes of its arguments on a table: their texts are read, their
columns are found in the table, and the statement is made of these. -/
def BuiltOn (t : Table) (command : Command) (a : StatementArguments) (x : Clause) : Prop :=
  ∃ s r, s.base = t ∧ s.name = a.aliased.getD t.name ∧ Reads a r ∧ Resolved t a r ∧
    x = builtClause s r command

theorem buildSelect_eq_ok (t : Table) (name : String) (a : StatementArguments) (x : Select)
    (hfits : Fits (.select name a)) (h : buildSelect t a = .ok x) :
    BuiltOn t (.select name a) a x.toClause := by
  have hvalues : a.values = [] := hfits
  simp only [buildSelect_eq, bind_eq_ok, pure_eq_ok] at h
  obtain ⟨s, hs, x₀, hx₀, x₁, hx₁, x₂, hx₂, rfl⟩ := h
  obtain ⟨rfl, hname⟩ := sourceOf_eq_ok t a s hs
  obtain ⟨hcolumns, rfl⟩ := listed_eq_ok s a x₀ hx₀
  obtain ⟨_, hcs, rfl⟩ := foldlM_eq_ok (condition s) Select.where _ _ _ hx₁
  obtain ⟨_, hterms, rfl⟩ := foldlM_eq_ok (orderTerm s) Select.orderBy _ _ _ hx₂
  obtain ⟨fs, hfs, hfilters, rfl⟩ := conditions_eq_ok s a.filters _ hcs
  obtain ⟨os, hos, horder, rfl⟩ := orderTerms_eq_ok s a.order _ hterms
  refine ⟨s, ⟨fs, os, []⟩, rfl, hname, ⟨hfs, hos, by rw [hvalues]; rfl⟩, ⟨hcolumns, hfilters, horder⟩,
    ?_⟩
  rw [Select.foldl_where, Select.foldl_orderBy _ _ rfl]
  rfl

/-- The values of an INSERT or an UPDATE, read from their texts. -/
def readValues (texts : List String) : Except Error (Option (List (String × Scalar))) :=
  if texts.isEmpty then .ok none
  else do return some (setValues none (← texts.mapM assignment))

theorem readValues_eq_ok (texts : List String) (given : Option (List (String × Scalar)))
    (h : readValues texts = .ok given) :
    ∃ values, texts.mapM ValueAssignment.parse = .ok values ∧ given = givenOf values := by
  rw [readValues] at h
  cases texts with
  | nil => exact ⟨[], rfl, (Except.ok.inj h).symm⟩
  | cons text texts =>
    simp only [List.isEmpty_cons, Bool.false_eq_true, ite_false, bind_eq_ok, pure_eq_ok] at h
    obtain ⟨pairs, hpairs, rfl⟩ := h
    obtain ⟨values, hvalues, rfl⟩ := assignments_eq_ok _ pairs hpairs
    refine ⟨values, hvalues, ?_⟩
    cases values with
    | nil =>
      simp only [List.mapM_cons, bind_eq_ok, pure_eq_ok, reduceCtorEq, and_false,
        exists_false] at hvalues
    | cons v values => rfl

theorem buildInsert_eq (t : Table) (a : StatementArguments) :
    buildInsert t a = (readValues a.values).map fun given => ⟨t, given⟩ := by
  unfold buildInsert readValues
  cases a.values.isEmpty with
  | true => rfl
  | false => cases a.values.mapM assignment <;> rfl

theorem buildUpdate_eq (t : Table) (a : StatementArguments) :
    buildUpdate t a = readValues a.values >>= fun given =>
      a.filters.foldlM (fun u text => do return u.where (← condition (.table t) text))
        ⟨t, given, none⟩ := by
  unfold buildUpdate readValues
  cases a.values.isEmpty with
  | true => rfl
  | false => cases a.values.mapM assignment <;> rfl

theorem buildInsert_eq_ok (t : Table) (name : String) (a : StatementArguments) (x : Insert)
    (hfits : Fits (.insert name a)) (h : buildInsert t a = .ok x) :
    BuiltOn t (.insert name a) a x.toClause := by
  obtain ⟨haliased, hcolumns, hfilters, horder⟩ := hfits
  rw [buildInsert_eq, map_eq_ok] at h
  obtain ⟨given, hgiven, rfl⟩ := h
  obtain ⟨values, hvalues, rfl⟩ := readValues_eq_ok a.values given hgiven
  refine ⟨.table t, ⟨[], [], values⟩, rfl, by rw [haliased]; rfl,
    ⟨by rw [hfilters]; rfl, by rw [horder]; rfl, hvalues⟩, ⟨?_, by simp, by simp⟩, rfl⟩
  rw [hcolumns]
  simp

theorem buildUpdate_eq_ok (t : Table) (name : String) (a : StatementArguments) (x : Update)
    (hfits : Fits (.update name a)) (h : buildUpdate t a = .ok x) :
    BuiltOn t (.update name a) a x.toClause := by
  obtain ⟨haliased, hcolumns, horder⟩ := hfits
  simp only [buildUpdate_eq, bind_eq_ok] at h
  obtain ⟨given, hgiven, hx⟩ := h
  obtain ⟨values, hvalues, rfl⟩ := readValues_eq_ok a.values given hgiven
  obtain ⟨_, hcs, rfl⟩ := foldlM_eq_ok (condition (.table t)) Update.where _ _ _ hx
  obtain ⟨fs, hfs, hfound, rfl⟩ := conditions_eq_ok (.table t) a.filters _ hcs
  refine ⟨.table t, ⟨fs, [], values⟩, rfl, by rw [haliased]; rfl,
    ⟨hfs, by rw [horder]; rfl, hvalues⟩, ⟨?_, hfound, by simp⟩, ?_⟩
  · rw [hcolumns]
    simp
  · rw [Update.foldl_where]
    rfl

theorem buildDelete_eq_ok (t : Table) (name : String) (a : StatementArguments) (x : Delete)
    (hfits : Fits (.delete name a)) (h : buildDelete t a = .ok x) :
    BuiltOn t (.delete name a) a x.toClause := by
  obtain ⟨haliased, hcolumns, hvalues, horder⟩ := hfits
  obtain ⟨_, hcs, rfl⟩ := foldlM_eq_ok (condition (.table t)) Delete.where _ _ _ h
  obtain ⟨fs, hfs, hfound, rfl⟩ := conditions_eq_ok (.table t) a.filters _ hcs
  refine ⟨.table t, ⟨fs, [], []⟩, rfl, by rw [haliased]; rfl,
    ⟨hfs, by rw [horder]; rfl, by rw [hvalues]; rfl⟩, ⟨?_, hfound, by simp⟩, ?_⟩
  · rw [hcolumns]
    simp
  · rw [Delete.foldl_where]
    rfl

theorem table_eq_ok (c : Catalog) (name : String) (t : Table) (h : c.table name = .ok t) :
    c.get? name = some t ∧ t.name = name := by
  rw [Catalog.table] at h
  split at h
  · next u hu =>
    obtain rfl := Except.ok.inj h
    exact ⟨hu, by simpa using List.find?_some hu⟩
  · cases h

theorem onTable_eq_ok {α : Type} (c : Catalog) (name : String) (build : Table → Except Error α)
    (toClause : α → Clause) (x : Clause)
    (h : (do return some (toClause (← build (← c.table name)))) = Except.ok (some x)) :
    ∃ t y, c.table name = .ok t ∧ build t = .ok y ∧ x = toClause y := by
  simp only [bind_eq_ok, pure_eq_ok, Option.some.injEq] at h
  obtain ⟨t, ht, y, hy, hx⟩ := h
  exact ⟨t, y, ht, hy, hx.symm⟩

/-- What a command builds on a catalog it builds on its table there. -/
theorem buildClause_eq_ok (c : Catalog) (command : Command) (name : String)
    (a : StatementArguments) (x : Clause) (hfits : Fits command)
    (hstatement : statement? command = some (name, a))
    (h : buildClause c command = .ok (some x)) :
    ∃ s r, c.get? name = some s.base ∧ s.name = a.aliased.getD name ∧ Reads a r ∧
      Resolved s.base a r ∧ x = builtClause s r command := by
  have hbuilt : ∃ t, c.table name = .ok t ∧ BuiltOn t command a x := by
    cases command with
    | select table b =>
      obtain ⟨rfl, rfl⟩ := Prod.mk.inj (Option.some.inj hstatement)
      obtain ⟨t, y, ht, hy, rfl⟩ := onTable_eq_ok c _ (buildSelect · _) Select.toClause x h
      exact ⟨t, ht, buildSelect_eq_ok t _ _ y hfits hy⟩
    | insert table b =>
      obtain ⟨rfl, rfl⟩ := Prod.mk.inj (Option.some.inj hstatement)
      obtain ⟨t, y, ht, hy, rfl⟩ := onTable_eq_ok c _ (buildInsert · _) Insert.toClause x h
      exact ⟨t, ht, buildInsert_eq_ok t _ _ y hfits hy⟩
    | update table b =>
      obtain ⟨rfl, rfl⟩ := Prod.mk.inj (Option.some.inj hstatement)
      obtain ⟨t, y, ht, hy, rfl⟩ := onTable_eq_ok c _ (buildUpdate · _) Update.toClause x h
      exact ⟨t, ht, buildUpdate_eq_ok t _ _ y hfits hy⟩
    | delete table b =>
      obtain ⟨rfl, rfl⟩ := Prod.mk.inj (Option.some.inj hstatement)
      obtain ⟨t, y, ht, hy, rfl⟩ := onTable_eq_ok c _ (buildDelete · _) Delete.toClause x h
      exact ⟨t, ht, buildDelete_eq_ok t _ _ y hfits hy⟩
    | tables => cases hstatement
    | compile file => cases hstatement
  obtain ⟨t, ht, s, r, rfl, hname, hreads, hresolved, hx⟩ := hbuilt
  obtain ⟨hget, htable⟩ := table_eq_ok c name _ ht
  exact ⟨s, r, hget, htable ▸ hname, hreads, hresolved, hx⟩

end CommandLine

end BoundSql
