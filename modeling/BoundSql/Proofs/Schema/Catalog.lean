import Mathlib.Data.List.Nodup
import BoundSql.Proofs.Schema.Table
import BoundSql.Schema.Catalog

/-!
# Catalogs that can be declared

Tables make a catalog just when their names differ and every reference names a column that a table
of the list declares. Since the names differ, a reference that names a table of the list names a
column of this very table.
-/

namespace BoundSql

namespace Table

theorem mem_references (t : Table) (c : Column) (r : Reference) :
    (c, r) ∈ t.references ↔ c ∈ t.columns ∧ c.options.reference = some r := by
  simp only [references, List.mem_filterMap, Option.map_eq_some_iff, Prod.mk.injEq]
  constructor
  · rintro ⟨d, hd, s, hs, rfl, rfl⟩
    exact ⟨hd, hs⟩
  · rintro ⟨hc, hr⟩
    exact ⟨c, hc, r, hr, rfl, rfl⟩

theorem hasColumn_of_mem_references (t : Table) (c : Column) (r : Reference)
    (h : (c, r) ∈ t.references) : t.hasColumn c.name = true :=
  (t.hasColumn_iff c.name).mpr (List.mem_map_of_mem ((t.mem_references c r).mp h).1)

end Table

namespace Catalog

/-- The tables have different names, and every reference of one names a column of one. -/
structure Sound (tables : List Table) : Prop where
  distinct : (tables.map Table.name).Nodup
  resolved : ∀ t ∈ tables, ∀ e ∈ t.references,
    ∃ target ∈ tables, target.name = e.2.table ∧ target.hasColumn e.2.column = true

theorem find?_eq_some_iff (tables : List Table) (name : String) (t : Table)
    (hdistinct : (tables.map Table.name).Nodup) :
    find? tables name = some t ↔ t ∈ tables ∧ t.name = name := by
  constructor
  · intro h
    exact ⟨List.mem_of_find?_eq_some h, by simpa using List.find?_some h⟩
  · rintro ⟨ht, hname⟩
    cases hfind : find? tables name with
    | none =>
      have hnone := List.find?_eq_none.mp hfind t ht
      simp [hname] at hnone
    | some u =>
      have hu : u.name = name := by simpa using List.find?_some hfind
      rw [List.inj_on_of_nodup_map hdistinct (List.mem_of_find?_eq_some hfind) ht
        (hu.trans hname.symm)]

theorem repeatedTable_eq_none (seen : List String) (tables : List Table) :
    repeatedTable seen tables = none ↔
      (∀ t ∈ tables, t.name ∉ seen) ∧ (tables.map Table.name).Nodup := by
  induction tables generalizing seen with
  | nil => simp [repeatedTable]
  | cons t ts ih =>
    by_cases hseen : t.name ∈ seen
    · simp [repeatedTable, hseen]
    · rw [repeatedTable, if_neg hseen, ih, List.forall_mem_cons, List.map_cons, List.nodup_cons]
      simp only [List.mem_cons, not_or, List.mem_map, not_exists, not_and]
      constructor
      · rintro ⟨hts, hnodup⟩
        exact ⟨⟨hseen, fun u hu => (hts u hu).2⟩, fun u hu he => (hts u hu).1 he, hnodup⟩
      · rintro ⟨⟨_, hts⟩, hnew, hnodup⟩
        exact ⟨fun u hu => ⟨hnew u hu, hts u hu⟩, hnodup⟩

theorem referenceFault_eq_none (tables : List Table) (t : Table) (c : Column) (r : Reference)
    (hdistinct : (tables.map Table.name).Nodup) :
    referenceFault tables t c r = none ↔
      ∃ target ∈ tables, target.name = r.table ∧ target.hasColumn r.column = true := by
  have hfind := find?_eq_some_iff tables r.table
  unfold referenceFault
  cases h : find? tables r.table with
  | none =>
    refine iff_of_false nofun ?_
    rintro ⟨target, hmem, hname, _⟩
    rw [(hfind target hdistinct).mpr ⟨hmem, hname⟩] at h
    cases h
  | some target =>
    obtain ⟨hmem, hname⟩ := (hfind target hdistinct).mp h
    constructor
    · intro hfault
      by_cases hcolumn : target.hasColumn r.column = true
      · exact ⟨target, hmem, hname, hcolumn⟩
      · simp [hcolumn] at hfault
    · rintro ⟨other, hother, hothername, hcolumn⟩
      have he := (hfind other hdistinct).mpr ⟨hother, hothername⟩
      rw [h] at he
      obtain rfl := Option.some.inj he
      simp [hcolumn]

theorem danglingReference_eq_none (tables : List Table)
    (hdistinct : (tables.map Table.name).Nodup) :
    danglingReference tables = none ↔ Sound tables := by
  simp only [danglingReference, List.findSome?_eq_none_iff, Prod.forall]
  constructor
  · intro h
    refine ⟨hdistinct, ?_⟩
    rintro t ht ⟨c, r⟩ he
    exact (referenceFault_eq_none tables t c r hdistinct).mp (h t ht c r he)
  · intro h t ht c r he
    exact (referenceFault_eq_none tables t c r hdistinct).mpr (h.resolved t ht (c, r) he)

theorem declare_eq_ok (tables : List Table) (c : Catalog) :
    declare tables = .ok c ↔ c = ⟨tables⟩ ∧ Sound tables := by
  have hrepeated := repeatedTable_eq_none [] tables
  simp only [List.not_mem_nil, not_false_eq_true, implies_true, true_and] at hrepeated
  unfold declare
  cases hr : repeatedTable [] tables with
  | some fault =>
    refine iff_of_false (fun h => by cases h) fun h => ?_
    rw [hrepeated.mpr h.2.distinct] at hr
    cases hr
  | none =>
    have hdangling := danglingReference_eq_none tables (hrepeated.mp hr)
    cases hd : danglingReference tables with
    | some fault =>
      refine iff_of_false (fun h => by cases h) fun h => ?_
      rw [hdangling.mpr h.2] at hd
      cases hd
    | none =>
      constructor
      · intro h
        exact ⟨(Except.ok.inj h).symm, hdangling.mp hd⟩
      · rintro ⟨rfl, _⟩
        rfl

theorem Sound.hasColumn {tables : List Table} (h : Sound tables) (t target : Table)
    (ht : t ∈ tables) (htarget : target ∈ tables) (e : Column × Reference)
    (he : e ∈ t.references) (hname : e.2.table = target.name) :
    target.hasColumn e.2.column = true := by
  obtain ⟨found, hfound, hfoundname, hcolumn⟩ := h.resolved t ht e he
  -- No other table has the name that the reference gives.
  have hsame := List.inj_on_of_nodup_map h.distinct hfound htarget (hfoundname.trans hname)
  rw [← hsame]
  exact hcolumn

end Catalog

end BoundSql
