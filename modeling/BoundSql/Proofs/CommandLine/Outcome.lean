import BoundSql.Proofs.CommandLine.Building

/-!
# How a run ends

A run of a command that builds a statement ends in one of two ways. It succeeds and prints the
statement that was built on the catalog of its schema; or it fails, and prints no statement.
-/

namespace BoundSql.CommandLine

/-- The quoting that a statement is rendered with. -/
def quotingOf (settings : Settings) (config : Config) : Quoting :=
  (settings.dialect.elim config config.withDialect).quoting

/-- What the settings of a run lead to: the configuration, and the catalog of its schema. -/
structure Supplied (h : Host Id) (settings : Settings) (config : Config) (catalog : Catalog) :
    Prop where
  configured : (loadConfig h settings.config).run = .ok config
  cataloged : (loadCatalog h (settings.schema.or config.schema)).run = .ok catalog

theorem runCommand_of_statement (h : Host Id) (settings : Settings) (config : Config)
    (command : Command) (hstatement : (statement? command).isSome) :
    (runCommand h settings config command).run
      = match (loadCatalog h (settings.schema.or config.schema)).run with
        | .ok catalog => runOnCatalog settings (quotingOf settings config) catalog command
        | .error failure => failed [] failure := by
  obtain ⟨_, _, dialect, _, _⟩ := settings
  cases command with
  | tables => cases hstatement
  | compile file => cases hstatement
  | _ => cases dialect <;> rfl

theorem run_of_read (h : Host Id) (words : List String) (settings : Settings) (command : Command)
    (hread : read h.environment words = .ok (settings, command)) :
    (run h words).run
      = match (loadConfig h settings.config).run with
        | .ok config => (runCommand h settings config command).run
        | .error failure => failed [] failure := by
  unfold run
  rw [hread]
  rfl

/-- A run of a command that builds a statement fails before it builds it, or runs on a catalog. -/
theorem run_of_statement (h : Host Id) (words : List String) (settings : Settings)
    (command : Command) (hread : read h.environment words = .ok (settings, command))
    (hstatement : (statement? command).isSome) :
    (∃ config catalog, Supplied h settings config catalog ∧
        (run h words).run = runOnCatalog settings (quotingOf settings config) catalog command) ∨
      ∃ failure, (run h words).run = failed [] failure := by
  rw [run_of_read h words settings command hread]
  cases hconfig : (loadConfig h settings.config).run with
  | error failure => exact Or.inr ⟨failure, rfl⟩
  | ok config =>
    simp only [runCommand_of_statement h settings config command hstatement]
    cases hcatalog : (loadCatalog h (settings.schema.or config.schema)).run with
    | ok catalog => exact Or.inl ⟨config, catalog, ⟨hconfig, hcatalog⟩, rfl⟩
    | error failure => exact Or.inr ⟨failure, rfl⟩

theorem buildClause_ne_none (c : Catalog) (command : Command)
    (hstatement : (statement? command).isSome) : buildClause c command ≠ .ok none := by
  cases command with
  | tables => cases hstatement
  | compile file => cases hstatement
  | _ =>
    intro h
    simp only [buildClause, bind_eq_ok, pure_eq_ok, reduceCtorEq, and_false, exists_false] at h

/-- A statement that is built on a catalog is rendered and printed, or else nothing is printed. -/
theorem runOnCatalog_of_statement (settings : Settings) (q : Quoting) (catalog : Catalog)
    (command : Command) (hstatement : (statement? command).isSome) :
    (∃ x st, buildClause catalog command = .ok (some x) ∧ x.compile q = .ok st ∧
        (runOnCatalog settings q catalog command).exit = 0 ∧
        (runOnCatalog settings q catalog command).output
          = Report.statement (settings.format.getD .text) st) ∨
      (runOnCatalog settings q catalog command).exit = 1 ∧
        (runOnCatalog settings q catalog command).output = "" := by
  cases hbuild : buildClause catalog command with
  | error e =>
    rw [runOnCatalog, hbuild]
    exact Or.inr ⟨rfl, rfl⟩
  | ok built =>
    cases built with
    | none => exact absurd hbuild (buildClause_ne_none catalog command hstatement)
    | some x =>
      have hreport : runOnCatalog settings q catalog command = report settings q x := by
        rw [runOnCatalog, hbuild]
      rw [hreport]
      cases hcompile : x.compile q with
      | ok st =>
        rw [report, hcompile]
        exact Or.inl ⟨x, st, rfl, hcompile, rfl, rfl⟩
      | error e =>
        rw [report, hcompile]
        exact Or.inr ⟨rfl, rfl⟩

/-- A command prints a statement on a source: the table is in the catalog that the settings lead to,
its texts are read and its columns found, and what is built of them is rendered. -/
structure Prints (h : Host Id) (settings : Settings) (command : Command) (name : String)
    (a : StatementArguments) (s : Source) (r : Readings) (q : Quoting) (st : Statement) : Prop where
  supplied : ∃ config catalog, Supplied h settings config catalog ∧
    q = quotingOf settings config ∧ catalog.get? name = some s.base ∧
    buildClause catalog command = .ok (some (builtClause s r command))
  named : s.name = a.aliased.getD name
  reads : Reads a r
  resolved : Resolved s.base a r
  compiled : (builtClause s r command).compile q = .ok st

/-- A run of a command that builds a statement prints one, or else it fails and prints nothing. -/
theorem run_prints (h : Host Id) (words : List String) (settings : Settings) (command : Command)
    (name : String) (a : StatementArguments)
    (hread : read h.environment words = .ok (settings, command))
    (hstatement : statement? command = some (name, a)) :
    (∃ s r q st, Prints h settings command name a s r q st ∧ (run h words).run.exit = 0 ∧
        (run h words).run.output = Report.statement (settings.format.getD .text) st) ∨
      (run h words).run.exit = 1 ∧ (run h words).run.output = "" := by
  have hsome : (statement? command).isSome := by rw [hstatement]; rfl
  have hfits := fits_of_read h.environment words settings command hread
  rcases run_of_statement h words settings command hread hsome with
    ⟨config, catalog, hsupplied, hrun⟩ | ⟨failure, hrun⟩
  · rw [hrun]
    rcases runOnCatalog_of_statement settings (quotingOf settings config) catalog command hsome with
      ⟨x, st, hbuild, hcompile, hends⟩ | hfailed
    · obtain ⟨s, r, hget, hname, hreads, hresolved, rfl⟩ :=
        buildClause_eq_ok catalog command name a x hfits hstatement hbuild
      exact Or.inl ⟨s, r, _, st,
        ⟨⟨config, catalog, hsupplied, rfl, hget, hbuild⟩, hname, hreads, hresolved, hcompile⟩,
        hends⟩
    · exact Or.inr hfailed
  · rw [hrun]
    exact Or.inr ⟨rfl, rfl⟩

end BoundSql.CommandLine
