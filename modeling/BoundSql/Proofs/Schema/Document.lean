import Mathlib.Data.List.Induction
import Mathlib.Logic.Function.Basic
import BoundSql.Proofs.Json.Fields
import BoundSql.Proofs.Schema.Catalog
import BoundSql.Schema.Document

/-!
# Catalogs and their tables by name

A catalog comes from its tables alone: which lists are refused does not depend on their order, and
a name finds the one table that has it, at the position that one pass over the list notes for the
name. A catalog that is read from a text has the tables of its entries and no other properties.
-/

namespace BoundSql

namespace Catalog

/-! ### Acceptance -/

theorem declare_accepts_iff (tables : List Table) :
    (∃ c, declare tables = .ok c) ↔ Sound tables := by
  constructor
  · rintro ⟨c, hc⟩
    exact ((declare_eq_ok tables c).mp hc).2
  · intro h
    exact ⟨⟨tables⟩, (declare_eq_ok tables _).mpr ⟨rfl, h⟩⟩

theorem Sound.perm {tables tables' : List Table} (h : Sound tables) (hperm : tables.Perm tables') :
    Sound tables' := by
  refine ⟨(hperm.map Table.name).nodup_iff.mp h.distinct, fun t ht e he => ?_⟩
  obtain ⟨target, htarget, hresolved⟩ := h.resolved t (hperm.mem_iff.mpr ht) e he
  exact ⟨target, hperm.mem_iff.mp htarget, hresolved⟩

/-! ### Positions of names -/

/-- The position of the table of each name, noted in one pass over the list. -/
def positions (tables : List Table) : String → Option Nat :=
  tables.zipIdx.foldl (fun index x => Function.update index x.1.name (some x.2)) fun _ => none

theorem positions_append_singleton (tables : List Table) (t : Table) :
    positions (tables ++ [t])
      = Function.update (positions tables) t.name (some tables.length) := by
  rw [positions, List.zipIdx_append, List.foldl_append, Nat.zero_add]
  rfl

theorem positions_eq_some (tables : List Table) (name : String) (i : Nat)
    (hdistinct : (tables.map Table.name).Nodup) :
    positions tables name = some i ↔ ∃ t, tables[i]? = some t ∧ t.name = name := by
  induction tables using List.reverseRecOn generalizing i with
  | nil => simp [positions]
  | append_singleton tables t ih =>
    rw [List.map_append, List.nodup_append] at hdistinct
    obtain ⟨hdistinct, _, hnew⟩ := hdistinct
    have hother : ∀ (j : Nat) (u : Table), tables[j]? = some u → u.name ≠ t.name :=
      fun j u hu => hnew _ (List.mem_map_of_mem (List.mem_of_getElem? hu)) _ (by simp)
    rw [positions_append_singleton]
    by_cases hname : name = t.name
    · rw [hname, Function.update_self, Option.some_inj]
      constructor
      · rintro rfl
        exact ⟨t, by simp, rfl⟩
      · rintro ⟨u, hu, huname⟩
        by_contra hi
        have hbefore : tables[i]? = some u := by grind
        exact hother i u hbefore huname
    · rw [Function.update_of_ne hname, ih i hdistinct]
      refine exists_congr fun u => and_congr_left fun huname => ?_
      have hu : u ≠ t := fun he => hname (he ▸ huname.symm)
      grind

/-! ### Tables by name -/

/-- A name finds the table that has it, of which there is no second one, by its position; and
nothing is found under any other name. -/
structure FindsByName (c : Catalog) : Prop where
  found : ∀ name t, c.get? name = some t ↔ ∃ i : Nat, c.tables[i]? = some t ∧ t.name = name ∧
    ∀ (j : Nat) (u : Table), c.tables[j]? = some u → u.name = name → j = i
  missing : ∀ name, c.get? name = none ↔ name ∉ c.names
  located : ∀ name, c.get? name = (positions c.tables name).bind fun i => c.tables[i]?

theorem Sound.position_unique {tables : List Table} (h : Sound tables) (i j : Nat) (t u : Table)
    (ht : tables[i]? = some t) (hu : tables[j]? = some u) (hname : u.name = t.name) : j = i := by
  have hi := (positions_eq_some tables t.name i h.distinct).mpr ⟨t, ht, rfl⟩
  have hj := (positions_eq_some tables t.name j h.distinct).mpr ⟨u, hu, hname⟩
  exact Option.some.inj (hj.symm.trans hi)

theorem Sound.findsByName {c : Catalog} (h : Sound c.tables) : c.FindsByName := by
  have hfind := fun name t => find?_eq_some_iff c.tables name t h.distinct
  refine ⟨fun name t => ?_, fun name => ?_, fun name => ?_⟩
  · rw [get?, hfind]
    constructor
    · rintro ⟨ht, rfl⟩
      obtain ⟨i, hi⟩ := List.mem_iff_getElem?.mp ht
      exact ⟨i, hi, rfl, fun j u hj hu => h.position_unique i j t u hi hj hu⟩
    · rintro ⟨i, hi, hname, _⟩
      exact ⟨List.mem_of_getElem? hi, hname⟩
  · simp [get?, find?, names]
  · refine Option.ext fun t => ?_
    rw [get?, hfind, Option.bind_eq_some_iff]
    constructor
    · rintro ⟨ht, rfl⟩
      obtain ⟨i, hi⟩ := List.mem_iff_getElem?.mp ht
      exact ⟨i, (positions_eq_some _ _ i h.distinct).mpr ⟨t, hi, rfl⟩, hi⟩
    · rintro ⟨i, hposition, hi⟩
      obtain ⟨u, hu, hname⟩ := (positions_eq_some _ _ i h.distinct).mp hposition
      obtain rfl := Option.some.inj (hi.symm.trans hu)
      exact ⟨List.mem_of_getElem? hi, hname⟩

theorem parse_eq_ok (text : String) (c : Catalog) :
    parse text = .ok c ↔ ∃ entries tables, entries? text = some entries ∧
      entries.mapM TableEntry.toTable = .ok tables ∧ declare tables = .ok c := by
  unfold parse
  cases entries? text with
  | none => simp
  | some entries => simp [bind_eq_ok]

/--
Tables make a catalog just when their names differ and every reference of one names a column that a
table of the list declares, in whatever order they stand. The catalog has the tables in the given
order and finds each of them by its name. All this holds of a catalog that is read from a text, the
given tables then being those of the entries of the text.
-/
theorem declare_resolves :
    (∀ tables, (∃ c, declare tables = .ok c) ↔ (tables.map Table.name).Nodup ∧
      ∀ t ∈ tables, ∀ e ∈ t.references,
        ∃ target ∈ tables, target.name = e.2.table ∧ e.2.column ∈ target.columnNames) ∧
    (∀ tables tables' : List Table, tables.Perm tables' →
      ((∃ c, declare tables = .ok c) ↔ ∃ c, declare tables' = .ok c)) ∧
    (∀ tables c, declare tables = .ok c → c.tables = tables ∧ c.FindsByName) ∧
    ∀ text c, parse text = .ok c →
      (∃ entries, entries? text = some entries ∧
        entries.mapM TableEntry.toTable = .ok c.tables) ∧
      Sound c.tables ∧ c.FindsByName := by
  have hfinds : ∀ tables c, declare tables = .ok c →
      c.tables = tables ∧ Sound c.tables ∧ c.FindsByName := by
    intro tables c hc
    obtain ⟨rfl, hsound⟩ := (declare_eq_ok tables c).mp hc
    exact ⟨rfl, hsound, hsound.findsByName⟩
  refine ⟨fun tables => ?_, fun tables tables' hperm => ?_, fun tables c hc => ?_,
    fun text c hc => ?_⟩
  · rw [declare_accepts_iff]
    simp only [← Table.hasColumn_iff]
    exact ⟨fun h => ⟨h.distinct, h.resolved⟩, fun h => ⟨h.1, h.2⟩⟩
  · rw [declare_accepts_iff, declare_accepts_iff]
    exact ⟨fun h => h.perm hperm, fun h => h.perm hperm.symm⟩
  · obtain ⟨htables, _, hbyName⟩ := hfinds tables c hc
    exact ⟨htables, hbyName⟩
  · obtain ⟨entries, tables, hentries, hmade, hdeclare⟩ := (parse_eq_ok text c).mp hc
    obtain ⟨rfl, hsound, hbyName⟩ := hfinds tables c hdeclare
    exact ⟨⟨entries, hentries, hmade⟩, hsound, hbyName⟩

/-- Teams have a captain among the players and a rival among the teams. -/
def teams : Table :=
  ⟨"teams", [⟨"id", .integer, {}⟩, ⟨"captain", .integer, { reference := some ⟨"players", "id"⟩ }⟩,
    ⟨"rival", .integer, { reference := some ⟨"teams", "id"⟩ }⟩]⟩

def players : Table :=
  ⟨"players", [⟨"id", .integer, {}⟩, ⟨"team", .integer, { reference := some ⟨"teams", "id"⟩ }⟩]⟩

/-- A column that references itself. -/
def loopText : String :=
  "[[tables]]\nname = \"t\"\n[[tables.columns]]\nname = \"x\"\ntype = \"int\"\n"
    ++ "references = \"t.x\"\n"

theorem declare_resolves_teams :
    [teams, players].Perm [players, teams] ∧
    declare [teams, players] = .ok ⟨[teams, players]⟩ ∧
    (∃ c, declare [players, teams] = .ok c) ∧
    (⟨[teams, players]⟩ : Catalog).get? "players" = some players ∧
    (⟨[teams, players]⟩ : Catalog).get? "games" = none ∧
    ∃ c, parse loopText = .ok c ∧ c.names = ["t"] ∧ Sound c.tables ∧
      c.get? "games" = none := by
  obtain ⟨_, hperm, hdeclared, hparsed⟩ := declare_resolves
  have hteams : declare [teams, players] = .ok ⟨[teams, players]⟩ := rfl
  have hswap : [teams, players].Perm [players, teams] := .swap _ _ _
  have hbyName := (hdeclared _ _ hteams).2
  have hnames : (parse loopText).toOption.map names = some ["t"] := by decide +kernel
  refine ⟨hswap, hteams, (hperm _ _ hswap).mp ⟨_, hteams⟩, ?_, ?_, ?_⟩
  · rw [hbyName.located]
    decide
  · rw [hbyName.missing]
    decide
  · cases hparse : parse loopText with
    | error e =>
      rw [hparse] at hnames
      cases hnames
    | ok c =>
      rw [hparse] at hnames
      have hnames' : c.names = ["t"] := Option.some.inj hnames
      obtain ⟨_, hsound, hfinds⟩ := hparsed loopText c hparse
      refine ⟨c, rfl, hnames', hsound, (hfinds.missing _).mpr ?_⟩
      rw [hnames']
      decide

end Catalog

end BoundSql
