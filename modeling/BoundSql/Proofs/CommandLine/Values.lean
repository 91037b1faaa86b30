import BoundSql.Proofs.CommandLine.Columns
import BoundSql.Proofs.Filter.Parsing
import BoundSql.Proofs.Scalar.Literal

/-!
# Values of a command line

The parameters that a command prints are the values of its assignments, the last one for each
column, and of its filters, except where a filter compares with `null`. As a JSON document they are
`null` where the value is the word or a number without a finite value.
-/

namespace BoundSql

/-! ### Corresponding lists -/

/-- Where one list is split at an element, so is the other. -/
theorem forall₂_split {α β : Type} {R : α → β → Prop} (xs : List α) (before after : List β) (y : β)
    (h : List.Forall₂ R xs (before ++ y :: after)) :
    ∃ xb x xa, xs = xb ++ x :: xa ∧ List.Forall₂ R xb before ∧ R x y ∧ List.Forall₂ R xa after := by
  obtain ⟨x, xa, hx, hafter, hdrop⟩ :=
    List.forall₂_cons_right_iff.mp (List.forall₂_drop_append xs before (y :: after) h)
  refine ⟨xs.take before.length, x, xa, ?_, List.forall₂_take_append xs before _ h, hx, hafter⟩
  rw [← hdrop, List.take_append_drop]

/-- To split a list at an element is to split it at the first one or to split the others. -/
theorem exists_split_cons {α : Type} (x : α) (xs : List α) (P : List α → α → Prop) :
    (∃ before y after, x :: xs = before ++ y :: after ∧ P before y) ↔
      P [] x ∨ ∃ before y after, xs = before ++ y :: after ∧ P (x :: before) y := by
  constructor
  · rintro ⟨before, y, after, he, hy⟩
    cases before with
    | nil =>
      obtain ⟨rfl, _⟩ := List.cons.inj he
      exact Or.inl hy
    | cons z before =>
      obtain ⟨rfl, hxs⟩ := List.cons.inj he
      exact Or.inr ⟨before, y, after, hxs, hy⟩
  · rintro (hx | ⟨before, y, after, rfl, hy⟩)
    · exact ⟨[], x, xs, rfl, hx⟩
    · exact ⟨x :: before, y, after, rfl, hy⟩

/-! ### Values that are set -/

theorem mem_setValue (values : List (String × Scalar)) (hvalues : (values.map (·.1)).Nodup)
    (column : String) (v : Scalar) (e : String × Scalar) :
    e ∈ setValue values column v ↔ e = (column, v) ∨ e ∈ values ∧ e.1 ≠ column := by
  induction values with
  | nil => simp [setValue]
  | cons d values ih =>
    obtain ⟨hnew, hnodup⟩ := List.nodup_cons.mp hvalues
    rw [setValue]
    split
    · next hd =>
      have hnone : column ∉ values.map (·.1) := hd ▸ hnew
      rw [hd, List.mem_cons, List.mem_cons]
      refine or_congr_right ⟨fun he => ⟨Or.inr he, fun heq => ?_⟩, ?_⟩
      · exact hnone (heq ▸ List.mem_map_of_mem he)
      · rintro ⟨rfl | he, hne⟩
        · exact absurd hd hne
        · exact he
    · next hd =>
      rw [List.mem_cons, List.mem_cons, ih hnodup]
      constructor
      · rintro (rfl | rfl | ⟨he, hne⟩)
        · exact Or.inr ⟨Or.inl rfl, hd⟩
        · exact Or.inl rfl
        · exact Or.inr ⟨Or.inr he, hne⟩
      · rintro (rfl | ⟨rfl | he, hne⟩)
        · exact Or.inr (Or.inl rfl)
        · exact Or.inl rfl
        · exact Or.inr (Or.inr ⟨he, hne⟩)

/-- A column is set to the last value that is given for it. -/
theorem mem_setValues (pairs : List (String × Scalar)) (e : String × Scalar) :
    e ∈ setValues none pairs ↔
      ∃ before after, pairs = before ++ e :: after ∧ e.1 ∉ after.map (·.1) := by
  -- From the right, since the last value for a column is the one that it keeps.
  induction pairs using List.reverseRecOn with
  | nil => simp [setValues]
  | append_singleton pairs d ih =>
    have hlast : setValues none (pairs ++ [d]) = setValue (setValues none pairs) d.1 d.2 :=
      List.foldl_concat ..
    rw [hlast, mem_setValue _ (nodup_setValues none pairs List.nodup_nil), ih]
    constructor
    · rintro (rfl | ⟨⟨before, after, rfl, hafter⟩, hne⟩)
      · exact ⟨pairs, [], rfl, List.not_mem_nil⟩
      · refine ⟨before, after ++ [d], by simp, ?_⟩
        rw [List.map_append, List.mem_append, not_or]
        exact ⟨hafter, by simpa using hne⟩
    · rintro ⟨before, after, hsplit, hafter⟩
      rcases List.eq_nil_or_concat' after with rfl | ⟨after, last, rfl⟩
      · obtain ⟨_, hd⟩ := List.append_inj' hsplit rfl
        exact Or.inl (List.singleton_inj.mp hd).symm
      · rw [← List.cons_append, ← List.append_assoc] at hsplit
        obtain ⟨hpairs, hd⟩ := List.append_inj' hsplit rfl
        obtain rfl := List.singleton_inj.mp hd
        rw [List.map_append, List.mem_append, not_or] at hafter
        exact Or.inr ⟨⟨before, after, hpairs, hafter.1⟩, by simpa using hafter.2⟩

/-! ### Sites -/

namespace Clause

theorem whereSites_eq (condition : Option Clause) :
    whereSites condition = condition.toList.flatMap sites := by
  cases condition <;> simp [whereSites]

end Clause

namespace Filter

/-- The site of the value of a filter, unless it is null. -/
def sites (f : Filter) : List Site :=
  if f.value.isNull then [] else [.bind f.column f.value]

theorem sites_comparisonOn (s : Source) (f : Filter) : (f.comparisonOn s).sites = f.sites := by
  cases hv : f.value <;> simp [comparisonOn, ColumnRef.compare, ColumnRef.operandClause, hv,
    Clause.sites, sites, Scalar.isNull]

theorem boundCount_cons (f : Filter) (fs : List Filter) (column : String) :
    boundCount (f :: fs) column
      = (if f.column = column ∧ f.value.isNull = false then 1 else 0) + boundCount fs column := by
  simp [boundCount, List.countP_cons, Nat.add_comm]

/-- The values of filters are bound under the free numbers of their columns in turn. -/
theorem mem_carried_iff (set taken : List String) (count : String → Nat) (fs : List Filter)
    (names : List String) (hused : Binder.UsedUpTo set count taken)
    (h : Site.Named taken (fs.flatMap sites) names) (e : String × Scalar) :
    e ∈ Site.carried (fs.flatMap sites) names ↔
      ∃ before f after, fs = before ++ f :: after ∧ f.value.isNull = false ∧
        e = (Binder.numbered f.column (Nat.nth (Binder.Free set f.column)
          (count f.column + boundCount before f.column)), f.value) := by
  -- The names taken so far carry the induction, with the count of what each column has used.
  induction fs generalizing count taken names with
  | nil => simp [Site.carried]
  | cons f fs ih =>
    rw [exists_split_cons f fs fun before g => g.value.isNull = false ∧
      e = (Binder.numbered g.column (Nat.nth (Binder.Free set g.column)
        (count g.column + boundCount before g.column)), g.value)]
    rw [List.flatMap_cons] at h ⊢
    cases hv : f.value.isNull with
    | true =>
      have hnone : f.sites = [] := if_pos hv
      rw [hnone, List.nil_append] at h ⊢
      rw [ih taken count names hused h]
      simp [boundCount_cons, hv]
    | false =>
      have hsite : f.sites = [.bind f.column f.value] := if_neg (by simp [hv])
      rw [hsite, List.singleton_append] at h ⊢
      cases h with
      | cons htakes hrest =>
        obtain ⟨n, rfl, hleast⟩ := htakes
        obtain rfl := Binder.eq_nth_of_isLeast set taken count f.column n hused hleast
        rw [Site.carried_cons, List.mem_append,
          ih _ _ _ (Binder.usedUpTo_cons set taken count f.column hused) hrest]
        simp only [boundCount_cons, hv, and_true, true_and, Nat.add_assoc]
        exact or_congr_left List.mem_singleton

end Filter

namespace CommandLine

/-! ### Sites of a built statement -/

theorem whereSites_conditionOf (s : Source) (filters : List Filter) :
    Clause.whereSites (conditionOf s filters) = filters.flatMap Filter.sites := by
  rw [Clause.whereSites_eq, conditionOf, Clause.sites_conjoinAll, Option.toList_none,
    List.nil_append, List.flatMap_map]
  exact List.flatMap_congr fun f _ => f.sites_comparisonOn s

theorem orderSites_orderOf (s : Source) (order : List OrderTerm) :
    Clause.orderSites (orderOf (order.map (OrderTerm.termOn s))) = [] := by
  have hnone : ∀ o : OrderTerm, (o.termOn s).sites = [] := by
    intro o
    unfold OrderTerm.termOn
    split <;> rfl
  unfold orderOf
  split
  · rfl
  · rw [Clause.orderSites, Option.elim, List.flatMap_map]
    exact List.flatMap_eq_nil_iff.mpr fun o _ => hnone o

def setSites (t : Table) (values : List ValueAssignment) : Command → List Site
  | .insert .. => columnSites t (givenOf values)
  | .update .. => columnSites t (givenOf values)
  | _ => []

theorem sites_builtClause (s : Source) (r : Readings) (command : Command) (name : String)
    (a : StatementArguments) (hfits : Fits command)
    (hstatement : statement? command = some (name, a)) (hreads : Reads a r) :
    (builtClause s r command).sites
      = setSites s.base r.values command ++ r.filters.flatMap Filter.sites := by
  cases command with
  | select table b =>
    rw [builtClause, Clause.sites_select, whereSites_conditionOf, orderSites_orderOf,
      List.append_nil, List.flatMap_map]
    exact congrArg (· ++ r.filters.flatMap Filter.sites)
      (List.append_eq_nil_iff.mpr ⟨List.flatMap_eq_nil_iff.mpr fun c _ => rfl, rfl⟩)
  | insert table b =>
    obtain ⟨_, rfl⟩ := Prod.mk.inj (Option.some.inj hstatement)
    rw [eq_nil_of_mapM _ _ _ hfits.2.2.1 hreads.filters, List.flatMap_nil, List.append_nil]
    rfl
  | update table b => rw [builtClause, Clause.sites_update, whereSites_conditionOf]; rfl
  | delete table b => rw [builtClause, Clause.sites_delete, whereSites_conditionOf]; rfl
  | tables => cases hstatement
  | compile file => cases hstatement

theorem getD_givenOf (values : List ValueAssignment) :
    (givenOf values).getD [] = setValues none (pairsOf values) := by
  cases values <;> rfl

theorem carried_of_given (t : Table) (values : List ValueAssignment) (names : List String)
    (h : Site.Named [] (columnSites t (givenOf values)) names) :
    Site.carried (columnSites t (givenOf values)) names = setValues none (pairsOf values) := by
  rw [Clause.named_columnSites t _ [] names h, Clause.carried_columnSites, getD_givenOf]

theorem carried_setSites (t : Table) (r : Readings) (command : Command) (name : String)
    (a : StatementArguments) (names : List String) (hfits : Fits command)
    (hstatement : statement? command = some (name, a)) (hreads : Reads a r)
    (hnamed : Site.Named [] (setSites t r.values command) names) :
    Site.carried (setSites t r.values command) names = setValues none (pairsOf r.values) := by
  cases command with
  | insert table b => exact carried_of_given t r.values names hnamed
  | update table b => exact carried_of_given t r.values names hnamed
  | select table b =>
    obtain ⟨_, rfl⟩ := Prod.mk.inj (Option.some.inj hstatement)
    rw [eq_nil_of_mapM _ _ _ hfits hreads.values]
    rfl
  | delete table b =>
    obtain ⟨_, rfl⟩ := Prod.mk.inj (Option.some.inj hstatement)
    rw [eq_nil_of_mapM _ _ _ hfits.2.2.1 hreads.values]
    rfl
  | tables => cases hstatement
  | compile file => cases hstatement

theorem names_setSites (s : Source) (r : Readings) (command : Command) (names : List String)
    (h : Site.Named [] (setSites s.base r.values command) names) :
    names = (builtClause s r command).setColumns := by
  cases command with
  | insert table a => exact Clause.named_columnSites s.base _ [] names h
  | update table a => exact Clause.named_columnSites s.base _ [] names h
  | _ =>
    cases h
    rfl

/-- The parameters of a built statement are the values that are set and those of the filters, which
are bound under the numbers that leave the set columns free. -/
theorem mem_entries_builtClause (q : Quoting) (s : Source) (r : Readings) (command : Command)
    (name : String) (a : StatementArguments) (st : Statement) (hfits : Fits command)
    (hstatement : statement? command = some (name, a)) (hreads : Reads a r)
    (hcompile : (builtClause s r command).compile q = .ok st) (e : String × Scalar) :
    e ∈ st.params.entries ↔ e ∈ setValues none (pairsOf r.values) ∨
      ∃ before f after, r.filters = before ++ f :: after ∧ f.value.isNull = false ∧
        e = (Binder.numbered f.column
          (Nat.nth (Binder.Free (builtClause s r command).setColumns f.column)
            (Filter.boundCount before f.column)), f.value) := by
  obtain ⟨_, names, hnamed, _, hentries⟩ := Clause.compile_named q _ st hcompile
  rw [sites_builtClause s r command name a hfits hstatement hreads] at hnamed hentries
  obtain ⟨set, names, rfl, hset, hfilters⟩ := hnamed.of_append
  obtain rfl := names_setSites s r command set hset
  rw [hentries, Site.carried_append _ _ _ _ hset.fits.length_eq, List.mem_append,
    carried_setSites s.base r command name a _ hfits hstatement hreads hset]
  have hused := Binder.usedUpTo_self (builtClause s r command).setColumns
    ((builtClause s r command).setColumns.reverse ++ []) fun name => by simp
  rw [Filter.mem_carried_iff _ _ _ _ _ hused hfilters]
  simp only [Nat.zero_add]

/-! ### Arguments and their values -/

/-- The text of an assignment sets a column to the value that a text writes. -/
def AssignmentText (text column raw : String) : Prop :=
  ∃ v, ValueAssignment.parse text = .ok v ∧ v.column = column ∧ Spells text column ['='] raw ∧
    v.value = .ofLiteral raw

/-- The text of a filter compares a column with the value that a text writes. -/
def FilterText (text column raw : String) : Prop :=
  ∃ f, Filter.parse text = .ok f ∧ f.column = column ∧ Spells text column f.comparison.sign raw ∧
    f.value = .ofLiteral raw

/-- The name of the parameter for a filter on a column that comes after some others. Its number is
the next one of the column: those before that bind a value under the column have used one each, and
no number is used with which the column has the name of a set one. -/
def FilterName (set before : List String) (column name : String) : Prop :=
  ∃ fs, before.mapM Filter.parse = .ok fs ∧
    name = Binder.numbered column (Nat.nth (Binder.Free set column) (Filter.boundCount fs column))

/-- A parameter has its value from an argument of a command that sets some columns: an assignment,
and none after it sets the same column, or a filter that does not compare with `null`. -/
def GivenBy (set : List String) (a : StatementArguments) (name raw : String) : Prop :=
  (∃ before text after, a.values = before ++ text :: after ∧ AssignmentText text name raw ∧
    name ∉ after.filterMap valueColumn?) ∨
  ∃ before text after column, a.filters = before ++ text :: after ∧ FilterText text column raw ∧
    ¬ NullText raw ∧ FilterName set before column name

theorem assignmentText_of_parse (text : String) (v : ValueAssignment)
    (h : ValueAssignment.parse text = .ok v) :
    ∃ raw, AssignmentText text v.column raw ∧ v.value = .ofLiteral raw := by
  obtain ⟨raw, hspells, hraw⟩ := v.parse_spells text h
  exact ⟨raw, ⟨v, h, rfl, hspells, hraw⟩, hraw⟩

theorem filterText_of_parse (text : String) (f : Filter) (h : Filter.parse text = .ok f) :
    ∃ raw, FilterText text f.column raw ∧ f.value = .ofLiteral raw := by
  obtain ⟨raw, hspells, hraw⟩ := f.parse_spells text h
  exact ⟨raw, ⟨f, h, rfl, hspells, hraw⟩, hraw⟩

theorem valueColumns_of_forall₂ (texts : List String) (values : List ValueAssignment)
    (h : List.Forall₂ (fun text v => ValueAssignment.parse text = .ok v) texts values) :
    texts.filterMap valueColumn? = values.map ValueAssignment.column :=
  filterMap_of_mapM ValueAssignment.parse ValueAssignment.column texts values
    ((mapM_eq_ok_iff _ texts values).mpr h)

theorem names_pairsOf (values : List ValueAssignment) :
    (pairsOf values).map (·.1) = values.map ValueAssignment.column := by
  rw [pairsOf, List.map_map]
  rfl

theorem givenBy_of_set (set : List String) (a : StatementArguments) (values : List ValueAssignment)
    (hvalues : a.values.mapM ValueAssignment.parse = .ok values) (e : String × Scalar)
    (he : e ∈ setValues none (pairsOf values)) :
    ∃ raw, GivenBy set a e.1 raw ∧ e.2 = .ofLiteral raw := by
  obtain ⟨before, after, hsplit, hlast⟩ := (mem_setValues _ e).mp he
  obtain ⟨vb, rest, rfl, rfl, hrest⟩ := List.map_eq_append_iff.mp hsplit
  obtain ⟨v, va, rfl, rfl, rfl⟩ := List.map_eq_cons_iff.mp hrest
  obtain ⟨tb, text, ta, htexts, _, hparse, hafter⟩ :=
    forall₂_split _ vb va v ((mapM_eq_ok_iff _ _ _).mp hvalues)
  obtain ⟨raw, htext, hraw⟩ := assignmentText_of_parse text v hparse
  refine ⟨raw, Or.inl ⟨tb, text, ta, htexts, htext, ?_⟩, hraw⟩
  rw [valueColumns_of_forall₂ ta va hafter, ← names_pairsOf]
  exact hlast

theorem givenBy_of_filter (set : List String) (a : StatementArguments) (before after : List Filter)
    (f : Filter) (hfilters : a.filters.mapM Filter.parse = .ok (before ++ f :: after))
    (hnull : f.value.isNull = false) :
    ∃ raw, GivenBy set a (Binder.numbered f.column
        (Nat.nth (Binder.Free set f.column) (Filter.boundCount before f.column))) raw ∧
      f.value = .ofLiteral raw := by
  obtain ⟨tb, text, ta, htexts, hbefore, hparse, _⟩ :=
    forall₂_split _ before after f ((mapM_eq_ok_iff _ _ _).mp hfilters)
  obtain ⟨raw, htext, hraw⟩ := filterText_of_parse text f hparse
  refine ⟨raw, Or.inr ⟨tb, text, ta, f.column, htexts, htext, ?_, before,
    (mapM_eq_ok_iff _ _ _).mpr hbefore, rfl⟩, hraw⟩
  rw [← Scalar.isNull_ofLiteral, ← hraw, hnull]
  exact Bool.false_ne_true

theorem mem_of_assignment (values : List ValueAssignment) (before after : List String)
    (text : String)
    (hvalues : (before ++ text :: after).mapM ValueAssignment.parse = .ok values) :
    ∃ column raw, AssignmentText text column raw ∧
      (column ∈ after.filterMap valueColumn? ∨
        (column, .ofLiteral raw) ∈ setValues none (pairsOf values)) := by
  obtain ⟨vb, v, va, rfl, _, hparse, hafter⟩ :=
    forall₂_split values before after text ((mapM_eq_ok_iff _ _ _).mp hvalues).flip
  obtain ⟨raw, htext, hraw⟩ := assignmentText_of_parse text v hparse
  refine ⟨v.column, raw, htext, or_iff_not_imp_left.mpr fun hlast => ?_⟩
  rw [valueColumns_of_forall₂ after va hafter.flip, ← names_pairsOf] at hlast
  refine (mem_setValues _ _).mpr ⟨pairsOf vb, pairsOf va, ?_, hlast⟩
  rw [← hraw]
  exact List.map_append

theorem exists_name_of_filter (set : List String) (filters : List Filter)
    (before after : List String) (text : String)
    (hfilters : (before ++ text :: after).mapM Filter.parse = .ok filters) :
    ∃ column raw, FilterText text column raw ∧ (NullText raw ∨
      ∃ fb f fa, filters = fb ++ f :: fa ∧ f.value.isNull = false ∧ f.value = .ofLiteral raw ∧
        FilterName set before column (Binder.numbered f.column
          (Nat.nth (Binder.Free set f.column) (Filter.boundCount fb f.column)))) := by
  obtain ⟨fb, f, fa, rfl, hbefore, hparse, _⟩ :=
    forall₂_split filters before after text ((mapM_eq_ok_iff _ _ _).mp hfilters).flip
  obtain ⟨raw, htext, hraw⟩ := filterText_of_parse text f hparse
  refine ⟨f.column, raw, htext, or_iff_not_imp_left.mpr fun hnull => ?_⟩
  rw [← Scalar.isNull_ofLiteral, ← hraw, Bool.not_eq_true] at hnull
  exact ⟨fb, f, fa, rfl, hnull, hraw, fb, (mapM_eq_ok_iff _ _ _).mpr hbefore.flip, rfl⟩

/-! ### Runs -/

def shownParams (p : Params) : List (String × Json) :=
  p.entries.map fun e => (e.1, .ofScalar e.2)

theorem statement_json (st : Statement) :
    Report.statement .json st
      = Report.line (Json.object [("sql", .string st.sql),
          ("params", .object (shownParams st.params))]).pretty := by
  have hdocument : st.toJson
      = .object [("sql", .string st.sql), ("params", .object (shownParams st.params))] := rfl
  rw [Report.statement, hdocument]

/--
A run that prints a statement as JSON prints an object of its SQL text and its parameters. Each
parameter has its value from an argument, and is `null` exactly if the text of this value is the
word or a number without a finite value. Conversely every assignment that no other one follows for
its column has a parameter, and every filter that does not compare with `null`, under the next
number of its column.
-/
theorem run_shows_values (h : Host Id) (words : List String) (settings : Settings)
    (command : Command) (name : String) (a : StatementArguments)
    (hread : read h.environment words = .ok (settings, command))
    (hstatement : statement? command = some (name, a)) (hformat : settings.format = some .json)
    (hexit : (run h words).run.exit = 0) :
    ∃ config catalog, ∃ x : Clause, ∃ sql members, Supplied h settings config catalog ∧
      buildClause catalog command = .ok (some x) ∧
      (run h words).run.output
        = Report.line (Json.object [("sql", .string sql), ("params", .object members)]).pretty ∧
      (∀ m ∈ members, ∃ raw, GivenBy x.setColumns a m.1 raw ∧
        m.2 = .ofScalar (.ofLiteral raw) ∧
        (m.2 = .null ↔ NullText raw ∨ Binary64.Unbounded (trimBlank raw.toList))) ∧
      (∀ before text after, a.values = before ++ text :: after →
        ∃ column raw, AssignmentText text column raw ∧
          (column ∈ after.filterMap valueColumn? ∨
            (column, .ofScalar (.ofLiteral raw)) ∈ members)) ∧
      ∀ before text after, a.filters = before ++ text :: after →
        ∃ column raw, FilterText text column raw ∧
          (NullText raw ∨ ∃ key, FilterName x.setColumns before column key ∧
            (key, .ofScalar (.ofLiteral raw)) ∈ members) := by
  have hfits := fits_of_read h.environment words settings command hread
  rcases run_prints h words settings command name a hread hstatement with
    ⟨s, r, q, st, hprints, _, houtput⟩ | ⟨hfailed, _⟩
  · obtain ⟨config, catalog, hsupplied, _, _, hbuild⟩ := hprints.supplied
    have hentries := mem_entries_builtClause q s r command name a st hfits hstatement hprints.reads
      hprints.compiled
    have hmember : ∀ e, e ∈ st.params.entries → (e.1, Json.ofScalar e.2) ∈ shownParams st.params :=
      fun e hmem => List.mem_map.mpr ⟨e, hmem, rfl⟩
    rw [hformat, Option.getD_some, statement_json] at houtput
    refine ⟨config, catalog, builtClause s r command, st.sql, shownParams st.params, hsupplied,
      hbuild, houtput, ?_, ?_, ?_⟩
    · intro m hm
      obtain ⟨e, he, rfl⟩ := List.mem_map.mp hm
      have hgiven : ∃ raw, GivenBy (builtClause s r command).setColumns a e.1 raw ∧
          e.2 = .ofLiteral raw := by
        rcases (hentries e).mp he with hset | ⟨before, f, after, hfilters, hnull, rfl⟩
        · exact givenBy_of_set _ a r.values hprints.reads.values e hset
        · exact givenBy_of_filter _ a before after f (hfilters ▸ hprints.reads.filters) hnull
      obtain ⟨raw, hraw, hvalue⟩ := hgiven
      refine ⟨raw, hraw, congrArg Json.ofScalar hvalue, ?_⟩
      rw [hvalue]
      exact Scalar.ofScalar_ofLiteral_eq_null raw
    · intro before text after hvalues
      obtain ⟨column, raw, htext, hgiven⟩ :=
        mem_of_assignment r.values before after text (hvalues ▸ hprints.reads.values)
      exact ⟨column, raw, htext, hgiven.imp_right fun hmem =>
        hmember (column, _) ((hentries _).mpr (Or.inl hmem))⟩
    · intro before text after hfilters
      obtain ⟨column, raw, htext, hgiven⟩ := exists_name_of_filter _ r.filters before after text
        (hfilters ▸ hprints.reads.filters)
      refine ⟨column, raw, htext, hgiven.imp_right ?_⟩
      rintro ⟨fb, f, fa, hsplit, hnull, hraw, hname⟩
      exact ⟨_, hname, hraw ▸ hmember (_, f.value)
        ((hentries _).mpr (Or.inr ⟨fb, f, fa, hsplit, hnull, rfl⟩))⟩
  · rw [hfailed] at hexit
    cases hexit

/-- A host with one schema file, of users with a last name. -/
def usersHost : Host Id where
  fileText? path :=
    if path = "schema.toml" then
      some ("[[tables]]\nname = \"users\"\n[[tables.columns]]\nname = \"id\"\ntype = \"integer\"\n"
        ++ "[[tables.columns]]\nname = \"lastname\"\ntype = \"string\"\n")
    else none
  readInput := ""
  environment _ := none

/-- A command line that renames a user to a word for no number. -/
def renameWords : List String :=
  ["--schema", "schema.toml", "--format", "json", "update", "users", "--set", "lastname=Nan",
    "--where", "id=7"]

def renameUser : StatementArguments :=
  { table := some "users", values := ["lastname=Nan"], filters := ["id=7"] }

theorem run_renameUser :
    (run usersHost renameWords).run.exit = 0 ∧
    (run usersHost renameWords).run.output
      = Report.line (Json.object
          [("sql", .string "UPDATE users SET lastname = :lastname WHERE users.id = :id_1"),
            ("params", .object [("lastname", .null), ("id_1", .int 7)])]).pretty := by
  decide +kernel

theorem run_shows_values_renameUser :
    let settings : Settings := { schema := some "schema.toml", format := some .json }
    read usersHost.environment renameWords = .ok (settings, .update "users" renameUser) ∧
    (run usersHost renameWords).run.exit = 0 ∧
    ∃ x : Clause, ∃ sql members,
      (run usersHost renameWords).run.output
        = Report.line (Json.object [("sql", .string sql), ("params", .object members)]).pretty ∧
      (∀ m ∈ members, ∃ raw, GivenBy x.setColumns renameUser m.1 raw ∧
        m.2 = .ofScalar (.ofLiteral raw) ∧
        (m.2 = .null ↔ NullText raw ∨ Binary64.Unbounded (trimBlank raw.toList))) ∧
      (∃ column raw, AssignmentText "lastname=Nan" column raw ∧
        (column, .ofScalar (.ofLiteral raw)) ∈ members) ∧
      ∃ column raw, FilterText "id=7" column raw ∧
        (NullText raw ∨ ∃ key, FilterName x.setColumns [] column key ∧
          (key, .ofScalar (.ofLiteral raw)) ∈ members) := by
  intro settings
  have hread : read usersHost.environment renameWords
      = .ok (settings, .update "users" renameUser) := rfl
  have hexit := run_renameUser.1
  obtain ⟨_, _, x, sql, members, _, _, houtput, hmembers, hassignments, hfilters⟩ :=
    run_shows_values usersHost renameWords settings _ "users" renameUser hread rfl rfl hexit
  obtain ⟨column, raw, htext, hlater | hmem⟩ := hassignments [] "lastname=Nan" [] rfl
  · cases hlater
  · exact ⟨hread, hexit, x, sql, members, houtput, hmembers, ⟨column, raw, htext, hmem⟩,
      hfilters [] "id=7" [] rfl⟩

/-- A last name that reads as no number is shown as `null`, though it is not the word. -/
theorem run_shows_null_renameUser :
    (run usersHost renameWords).run.exit = 0 ∧
    (run usersHost renameWords).run.output
      = Report.line (Json.object
          [("sql", .string "UPDATE users SET lastname = :lastname WHERE users.id = :id_1"),
            ("params", .object [("lastname", .null), ("id_1", .int 7)])]).pretty ∧
    AssignmentText "lastname=Nan" "lastname" "Nan" ∧ ¬ NullText "Nan" := by
  refine ⟨run_renameUser.1, run_renameUser.2, ?_, by unfold NullText; decide⟩
  exact ⟨⟨"lastname", .ofLiteral "Nan"⟩, rfl, rfl, ⟨[], [], rfl, rfl, rfl⟩, rfl⟩

end CommandLine

end BoundSql
