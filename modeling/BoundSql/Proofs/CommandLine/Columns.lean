import BoundSql.Proofs.Clause.Assigning
import BoundSql.Proofs.CommandLine.Outcome

/-!
# Columns of a command line

The columns of a statement that a command line builds come from four lists of arguments. Three of
them are looked up in the source while the statement is built, and the columns to be set are looked
up in the table when it is rendered. So a statement that is printed has no column that the table
does not declare.
-/

namespace BoundSql

namespace Clause

/-! ### Columns of a clause -/

/-- The columns that a clause mentions, from left to right. -/
def mentioned (c : Clause) : List ColumnRef := c.nodes.filterMap column?

/-- The columns that an INSERT or an UPDATE sets. -/
def setColumns : Clause → List String
  | insert t values => claimedColumns t values
  | update t values _ => claimedColumns t values
  | _ => []

theorem mentioned_eq (c : Clause) :
    c.mentioned = c.column?.toList ++ c.children.flatMap mentioned := by
  rw [mentioned, nodes_eq, List.filterMap_cons, List.filterMap_flatMap]
  cases c.column? <;> rfl

@[simp] theorem mentioned_column (c : ColumnRef) : (column c).mentioned = [c] := rfl

theorem mentioned_asMember (c : Clause) : c.asMember.mentioned = c.mentioned := by
  cases c with
  | junction o cs =>
    rw [asMember, mentioned_eq]
    simp [column?, children]
  | _ => rfl

theorem mentioned_conjoinAll (condition : Option Clause) (cs : List Clause) :
    (conjoinAll condition cs).toList.flatMap mentioned
      = (condition.toList ++ cs).flatMap mentioned :=
  flatMap_conjoinAll mentioned mentioned_asMember (fun cs => mentioned_eq (.junction .and cs))
    condition cs

theorem mentioned_columns (cs : List ColumnRef) : (cs.map column).flatMap mentioned = cs := by
  rw [List.flatMap_map]
  exact List.flatMap_singleton' cs

theorem mentioned_comparisonOn (s : Source) (f : Filter) :
    (f.comparisonOn s).mentioned = [s.refer f.column] := by
  cases hv : f.value <;> simp [Filter.comparisonOn, ColumnRef.compare, ColumnRef.operandClause, hv,
    mentioned_eq, column?, children, Source.refer]

theorem mentioned_termOn (s : Source) (o : OrderTerm) :
    (o.termOn s).mentioned = [s.refer o.column] := by
  unfold OrderTerm.termOn
  split <;> rfl

end Clause

namespace CommandLine

/-! ### Columns of arguments -/

def filterColumn? (text : String) : Option String := (Filter.parse text).toOption.map Filter.column

def orderColumn? (text : String) : Option String :=
  (OrderTerm.parse text).toOption.map OrderTerm.column

def valueColumn? (text : String) : Option String :=
  (ValueAssignment.parse text).toOption.map ValueAssignment.column

/-- The columns of the filters and the order terms. -/
def soughtColumns (a : StatementArguments) : List String :=
  a.filters.filterMap filterColumn? ++ a.order.filterMap orderColumn?

/-- The columns that some arguments name. -/
def namedColumns (a : StatementArguments) : List String :=
  a.columns ++ a.values.filterMap valueColumn? ++ soughtColumns a

theorem filterMap_of_mapM {ε α β γ : Type} (read : α → Except ε β) (part : β → γ) (xs : List α)
    (ys : List β) (h : xs.mapM read = .ok ys) :
    xs.filterMap (fun x => (read x).toOption.map part) = ys.map part := by
  induction xs generalizing ys with
  | nil =>
    rw [List.mapM_nil, pure_eq_ok] at h
    rw [← h]
    rfl
  | cons x xs ih =>
    simp only [List.mapM_cons, bind_eq_ok, pure_eq_ok] at h
    obtain ⟨y, hy, rest, hrest, rfl⟩ := h
    rw [List.filterMap_cons, hy, ih rest hrest]
    rfl

theorem soughtColumns_of_reads (a : StatementArguments) (r : Readings) (h : Reads a r) :
    soughtColumns a = r.filters.map Filter.column ++ r.order.map OrderTerm.column := by
  rw [← filterMap_of_mapM Filter.parse Filter.column _ _ h.filters,
    ← filterMap_of_mapM OrderTerm.parse OrderTerm.column _ _ h.order]
  rfl

theorem namedColumns_of_reads (a : StatementArguments) (r : Readings) (h : Reads a r) :
    namedColumns a = a.columns ++ (pairsOf r.values).map (·.1)
      ++ (r.filters.map Filter.column ++ r.order.map OrderTerm.column) := by
  rw [namedColumns, soughtColumns_of_reads a r h, pairsOf, List.map_map]
  exact congrArg (fun names => a.columns ++ names ++ _)
    (filterMap_of_mapM ValueAssignment.parse ValueAssignment.column _ _ h.values)

/-! ### Columns of a built statement -/

/-- The columns that a command lists. -/
def selectList (t : Table) : Command → List String
  | .select _ a => listedColumns t a
  | _ => []

theorem mentioned_conditionOf (s : Source) (filters : List Filter) :
    (conditionOf s filters).toList.flatMap Clause.mentioned
      = (filters.map Filter.column).map s.refer := by
  rw [conditionOf, Clause.mentioned_conjoinAll, Option.toList_none, List.nil_append,
    List.flatMap_map, List.map_map, List.map_eq_flatMap]
  exact List.flatMap_congr fun f _ => Clause.mentioned_comparisonOn s f

theorem mentioned_orderOf (s : Source) (order : List OrderTerm) :
    ((orderOf (order.map (OrderTerm.termOn s))).elim [] OrderTerms.terms).flatMap Clause.mentioned
      = (order.map OrderTerm.column).map s.refer := by
  have hterms : (orderOf (order.map (OrderTerm.termOn s))).elim [] OrderTerms.terms
      = order.map (OrderTerm.termOn s) := by
    cases order <;> rfl
  rw [hterms, List.flatMap_map, List.map_map, List.map_eq_flatMap]
  exact List.flatMap_congr fun o _ => Clause.mentioned_termOn s o

/-- A built statement mentions the columns that its command lists and those of its filters and its
order terms, as columns of its source. -/
theorem mentioned_builtClause (s : Source) (r : Readings) (command : Command) (name : String)
    (a : StatementArguments) (hfits : Fits command)
    (hstatement : statement? command = some (name, a)) (hreads : Reads a r) :
    (builtClause s r command).mentioned
      = (selectList s.base command ++ soughtColumns a).map s.refer := by
  rw [soughtColumns_of_reads a r hreads]
  cases command with
  | select table b =>
    rw [builtClause, Clause.mentioned_eq]
    simp only [Clause.column?, Option.toList_none, List.nil_append, Clause.children,
      List.append_nil, List.flatMap_append, Clause.mentioned_columns, mentioned_conditionOf,
      mentioned_orderOf, List.map_append, List.append_assoc]
    obtain ⟨_, rfl⟩ := Prod.mk.inj (Option.some.inj hstatement)
    rfl
  | insert table b =>
    obtain ⟨_, rfl⟩ := Prod.mk.inj (Option.some.inj hstatement)
    -- An INSERT takes neither filters nor an order.
    obtain ⟨_, _, hnofilters, hnoorder⟩ := hfits
    rw [eq_nil_of_mapM _ _ _ hnofilters hreads.filters, eq_nil_of_mapM _ _ _ hnoorder hreads.order]
    rfl
  | update table b =>
    obtain ⟨_, rfl⟩ := Prod.mk.inj (Option.some.inj hstatement)
    obtain ⟨_, _, hnoorder⟩ := hfits
    have hnone := eq_nil_of_mapM _ _ _ hnoorder hreads.order
    rw [builtClause, Clause.mentioned_eq, hnone, List.map_nil, List.append_nil]
    exact mentioned_conditionOf s r.filters
  | delete table b =>
    obtain ⟨_, rfl⟩ := Prod.mk.inj (Option.some.inj hstatement)
    obtain ⟨_, _, _, hnoorder⟩ := hfits
    have hnone := eq_nil_of_mapM _ _ _ hnoorder hreads.order
    rw [builtClause, Clause.mentioned_eq, hnone, List.map_nil, List.append_nil]
    exact mentioned_conditionOf s r.filters
  | tables => cases hstatement
  | compile file => cases hstatement

theorem mem_names_setValues (values : Option (List (String × Scalar)))
    (pairs : List (String × Scalar)) (name : String) :
    name ∈ (setValues values pairs).map (·.1) ↔
      name ∈ (values.getD []).map (·.1) ∨ name ∈ pairs.map (·.1) := by
  unfold setValues
  generalize values.getD [] = row
  induction pairs generalizing row with
  | nil => simp
  | cons e pairs ih =>
    rw [List.foldl_cons, ih, names_setValue, List.map_cons, List.mem_cons]
    by_cases hmem : e.1 ∈ row.map (·.1)
    · rw [if_pos hmem]
      constructor
      · rintro (h | h)
        · exact Or.inl h
        · exact Or.inr (Or.inr h)
      · rintro (h | rfl | h)
        · exact Or.inl h
        · exact Or.inl hmem
        · exact Or.inr h
    · rw [if_neg hmem, List.mem_append, List.mem_singleton, or_assoc]

theorem mem_claimedColumns_givenOf (t : Table) (values : List ValueAssignment) (name : String)
    (h : name ∈ (pairsOf values).map (·.1)) : name ∈ claimedColumns t (givenOf values) := by
  cases values with
  | nil => cases h
  | cons v values =>
    exact (mem_names_setValues none (pairsOf (v :: values)) name).mpr (Or.inr h)

theorem setColumns_declared (q : Quoting) (t : Table) (values : Option (List (String × Scalar)))
    (u : Template) (hacts : Template.acts u = assignmentActs q t values) (hu : u.Whole) :
    ∀ name ∈ claimedColumns t values, t.hasColumn name = true := by
  obtain ⟨set, hset⟩ := Clause.assignments_of_whole q t values u hacts hu
  obtain ⟨_, hknown, _⟩ := columns_of_assignments q t values set hset
  exact fun name hname => (t.hasColumn_iff name).mpr (hknown name hname)

/-- A built statement that is rendered sets declared columns only, and so do its assignments. -/
theorem set_declared (q : Quoting) (s : Source) (r : Readings) (command : Command) (name : String)
    (a : StatementArguments) (st : Statement) (hfits : Fits command)
    (hstatement : statement? command = some (name, a)) (hreads : Reads a r)
    (hcompile : (builtClause s r command).compile q = .ok st) :
    (∀ column ∈ (builtClause s r command).setColumns, s.base.hasColumn column = true) ∧
      ∀ column ∈ (pairsOf r.values).map (·.1), s.base.hasColumn column = true := by
  have hwhole := (Clause.compile_named q _ st hcompile).1
  cases command with
  | insert table b =>
    have hset := setColumns_declared q s.base (givenOf r.values) _
      (Clause.acts_insertTemplate ..) hwhole
    exact ⟨hset, fun column h => hset column (mem_claimedColumns_givenOf s.base r.values column h)⟩
  | update table b =>
    rw [builtClause, Clause.template_update, Template.whole_append] at hwhole
    have hset := setColumns_declared q s.base (givenOf r.values) _
      (Clause.acts_updateTemplate ..) hwhole.1
    exact ⟨hset, fun column h => hset column (mem_claimedColumns_givenOf s.base r.values column h)⟩
  | select table b =>
    obtain ⟨_, rfl⟩ := Prod.mk.inj (Option.some.inj hstatement)
    rw [eq_nil_of_mapM _ _ _ hfits hreads.values]
    exact ⟨nofun, nofun⟩
  | delete table b =>
    obtain ⟨_, rfl⟩ := Prod.mk.inj (Option.some.inj hstatement)
    rw [eq_nil_of_mapM _ _ _ hfits.2.2.1 hreads.values]
    exact ⟨nofun, nofun⟩
  | tables => cases hstatement
  | compile file => cases hstatement

theorem named_declared (s : Source) (a : StatementArguments) (r : Readings) (hreads : Reads a r)
    (hresolved : Resolved s.base a r)
    (hset : ∀ column ∈ (pairsOf r.values).map (·.1), s.base.hasColumn column = true) :
    ∀ column ∈ namedColumns a, s.base.hasColumn column = true := by
  rw [namedColumns_of_reads a r hreads]
  simp only [List.forall_mem_append, List.forall_mem_map]
  exact ⟨⟨hresolved.columns, List.forall_mem_map.mp hset⟩, hresolved.filters, hresolved.order⟩

theorem shown_declared (t : Table) (command : Command) (name : String) (a : StatementArguments)
    (hstatement : statement? command = some (name, a))
    (h : ∀ column ∈ namedColumns a, t.hasColumn column = true) :
    ∀ column ∈ selectList t command ++ soughtColumns a, t.hasColumn column = true := by
  intro column hcolumn
  rcases List.mem_append.mp hcolumn with hlisted | hsought
  · cases command with
    | select table b =>
      obtain ⟨_, rfl⟩ := Prod.mk.inj (Option.some.inj hstatement)
      rw [selectList, listedColumns] at hlisted
      split at hlisted
      · exact (t.hasColumn_iff column).mpr hlisted
      · exact h column (List.mem_append_left _ (List.mem_append_left _ hlisted))
    | _ => exact absurd hlisted List.not_mem_nil
  · exact h column (List.mem_append_right _ hsought)

/-! ### Runs -/

/--
A run that builds a statement and succeeds prints a statement on a table of its catalog: the columns
of the statement are those that the command lists and that its arguments name, in this order, each
qualified by the alias if there is one and by the table otherwise, and the columns that it mentions
and sets are declared. A run whose table is not in the catalog, or of which some argument names an
undeclared column, fails and prints nothing.
-/
theorem run_declared (h : Host Id) (words : List String) (settings : Settings) (command : Command)
    (name : String) (a : StatementArguments)
    (hread : read h.environment words = .ok (settings, command))
    (hstatement : statement? command = some (name, a)) :
    ((run h words).run.exit = 0 →
      ∃ config catalog t, ∃ x : Clause, ∃ st, Supplied h settings config catalog ∧
        catalog.get? name = some t ∧ buildClause catalog command = .ok (some x) ∧
        x.compile (quotingOf settings config) = .ok st ∧
        (run h words).run.output = Report.statement (settings.format.getD .text) st ∧
        x.mentioned.map ColumnRef.name = selectList t command ++ soughtColumns a ∧
        (∀ c ∈ x.mentioned, t.hasColumn c.name = true ∧
          (quotingOf settings config).quoteColumn c
            = (quotingOf settings config).quote (a.aliased.getD name) ++ "."
                ++ (quotingOf settings config).quote c.name) ∧
        ∀ column ∈ x.setColumns, t.hasColumn column = true) ∧
    ((∀ config catalog t, Supplied h settings config catalog → catalog.get? name = some t →
        ∃ column ∈ namedColumns a, t.hasColumn column = false) →
      (run h words).run.exit = 1 ∧ (run h words).run.output = "") := by
  have hfits := fits_of_read h.environment words settings command hread
  rcases run_prints h words settings command name a hread hstatement with
    ⟨s, r, q, st, hprints, hexit, houtput⟩ | ⟨hexit, houtput⟩
  · obtain ⟨config, catalog, hsupplied, rfl, hget, hbuild⟩ := hprints.supplied
    have hmentioned := mentioned_builtClause s r command name a hfits hstatement hprints.reads
    obtain ⟨hset, hvalues⟩ := set_declared _ s r command name a st hfits hstatement hprints.reads
      hprints.compiled
    have hdeclared := named_declared s a r hprints.reads hprints.resolved hvalues
    constructor
    · intro _
      refine ⟨config, catalog, s.base, builtClause s r command, st, hsupplied, hget, hbuild,
        hprints.compiled, houtput, ?_, ?_, hset⟩
      · rw [hmentioned, List.map_map]
        exact List.map_id _
      · intro c hc
        rw [hmentioned] at hc
        obtain ⟨column, hcolumn, rfl⟩ := List.mem_map.mp hc
        refine ⟨shown_declared s.base command name a hstatement hdeclared column hcolumn, ?_⟩
        rw [← hprints.named]
        rfl
    · intro hundeclared
      obtain ⟨column, hcolumn, hnone⟩ := hundeclared config catalog s.base hsupplied hget
      rw [hdeclared column hcolumn] at hnone
      cases hnone
  · refine ⟨fun hzero => ?_, fun _ => ⟨hexit, houtput⟩⟩
    rw [hexit] at hzero
    cases hzero

/-- A host with one schema file, of players with an identifier. -/
def playersHost : Host Id where
  fileText? path :=
    if path = "s.toml" then
      some "[[tables]]\nname = \"players\"\n[[tables.columns]]\nname = \"id\"\ntype = \"integer\"\n"
    else none
  readInput := ""
  environment _ := none

/-- Players in a given order. -/
def soughtPlayers : StatementArguments :=
  { table := some "players", aliased := some "p", filters := ["id>1"], order := ["id:desc"] }

/-- Players with a nickname. -/
def nicknamed : StatementArguments := { table := some "players", values := ["nick=Al"] }

theorem run_declared_players :
    let words :=
      ["-s", "s.toml", "select", "players", "--as", "p", "--where", "id>1", "-o", "id:desc"]
    let stray := ["-s", "s.toml", "update", "players", "--set", "nick=Al"]
    let settings : Settings := { schema := some "s.toml" }
    read playersHost.environment words = .ok (settings, .select "players" soughtPlayers) ∧
    read playersHost.environment stray = .ok (settings, .update "players" nicknamed) ∧
    (run playersHost words).run.output
      = "SELECT p.id FROM players AS p WHERE p.id > :id_1 ORDER BY p.id DESC\n\n"
        ++ "Params:\n  :id_1 = 1\n" ∧
    (∃ catalog t, ∃ x : Clause, catalog.get? "players" = some t ∧
      buildClause catalog (.select "players" soughtPlayers) = .ok (some x) ∧
      x.mentioned.map ColumnRef.name = ["id", "id", "id"] ∧
      ∀ c ∈ x.mentioned, t.hasColumn c.name = true ∧
        Quoting.plain.quoteColumn c = "p" ++ "." ++ Quoting.plain.quote c.name) ∧
    (run playersHost stray).run.exit = 1 ∧ (run playersHost stray).run.output = "" := by
  intro words stray settings
  have hread : read playersHost.environment words
      = .ok (settings, .select "players" soughtPlayers) := rfl
  have hstray : read playersHost.environment stray
      = .ok (settings, .update "players" nicknamed) := rfl
  have hexit : (run playersHost words).run.exit = 0 := by decide +kernel
  have hlisted : ((loadCatalog playersHost (some "s.toml")).run.toOption.bind
      (·.get? "players")).map (fun t => (t.columnNames, t.hasColumn "nick"))
        = some (["id"], false) := by decide +kernel
  have hknown : ∀ config catalog t, Supplied playersHost settings config catalog →
      catalog.get? "players" = some t → t.columnNames = ["id"] ∧ t.hasColumn "nick" = false := by
    intro config catalog t hsupplied hget
    have hcatalog : (loadCatalog playersHost (some "s.toml")).run = .ok catalog :=
      hsupplied.cataloged
    rw [hcatalog] at hlisted
    simpa [Except.toOption, hget] using hlisted
  refine ⟨hread, hstray, by decide +kernel, ?_, ?_⟩
  · obtain ⟨config, catalog, t, x, st, hsupplied, hget, hbuild, _, _, hnames, hcolumns, _⟩ :=
      (run_declared playersHost words settings _ "players" soughtPlayers hread rfl).1 hexit
    obtain ⟨hid, _⟩ := hknown config catalog t hsupplied hget
    have hconfig : config = {} := (Except.ok.inj hsupplied.configured).symm
    subst hconfig
    refine ⟨catalog, t, x, hget, hbuild, ?_, hcolumns⟩
    rw [hnames, selectList, listedColumns, hid]
    rfl
  · refine (run_declared playersHost stray settings _ "players" nicknamed hstray rfl).2
      fun config catalog t hsupplied hget => ⟨"nick", ?_, ?_⟩
    · decide +kernel
    · exact (hknown config catalog t hsupplied hget).2

end CommandLine

end BoundSql
