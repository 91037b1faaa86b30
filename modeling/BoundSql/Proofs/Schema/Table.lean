import BoundSql.Schema.Table

/-!
# Well-formed tables

A table can be declared just when it is well-formed: its name is not blank, and its columns have
names of their own.
-/

namespace BoundSql.Table

theorem columnFault_eq_none (table : String) (seen : List String) (columns : List Column) :
    columnFault table seen columns = none ↔
      (∀ c ∈ columns, c.name ≠ "" ∧ c.name ∉ seen) ∧ (columns.map Column.name).Nodup := by
  induction columns generalizing seen with
  | nil => simp [columnFault]
  | cons c cs ih =>
    by_cases hempty : c.name = ""
    · simp [columnFault, hempty]
    · by_cases hseen : c.name ∈ seen
      · simp [columnFault, hempty, hseen]
      · rw [columnFault, if_neg hempty, if_neg hseen, ih, List.forall_mem_cons, List.map_cons,
          List.nodup_cons]
        constructor
        · rintro ⟨hcs, hnodup⟩
          refine ⟨⟨⟨hempty, hseen⟩, fun d hd => ⟨(hcs d hd).1, fun hs => ?_⟩⟩, fun hmem => ?_,
            hnodup⟩
          · exact (hcs d hd).2 (List.mem_cons_of_mem _ hs)
          · obtain ⟨d, hd, he⟩ := List.mem_map.mp hmem
            exact (hcs d hd).2 (he ▸ List.mem_cons_self ..)
        · rintro ⟨⟨_, hcs⟩, hnew, hnodup⟩
          refine ⟨fun d hd => ⟨(hcs d hd).1, fun hs => ?_⟩, hnodup⟩
          rcases List.mem_cons.mp hs with he | hs
          · exact hnew (he ▸ List.mem_map_of_mem hd)
          · exact (hcs d hd).2 hs

theorem checked_eq_ok (name : String) (columns : List Column) (t : Table) :
    checked name columns = .ok t ↔ t = ⟨name, columns⟩ ∧ t.WellFormed := by
  have hfault := columnFault_eq_none name [] columns
  simp only [List.not_mem_nil, not_false_eq_true, and_true] at hfault
  simp only [checked]
  by_cases hblank : isBlankName name = true
  · simp only [hblank, ite_true]
    constructor
    · intro h
      cases h
    · rintro ⟨rfl, hname, _⟩
      exact absurd hblank (by simpa using hname)
  · simp only [hblank]
    cases hf : columnFault name [] columns with
    | some fault =>
      constructor
      · intro h
        cases h
      · rintro ⟨rfl, _, hnames, hnodup⟩
        rw [hfault.mpr ⟨hnames, hnodup⟩] at hf
        cases hf
    | none =>
      obtain ⟨hnames, hnodup⟩ := hfault.mp hf
      constructor
      · intro h
        cases h
        exact ⟨rfl, by simpa using hblank, hnames, hnodup⟩
      · rintro ⟨rfl, _⟩
        rfl

theorem declare_eq_ok (name : String) (columns : List Column) (t : Table) :
    declare name columns = .ok t ↔ t = ⟨name, columns⟩ ∧ t.WellFormed := by
  rw [← checked_eq_ok, declare]
  cases checked name columns with
  | error fault => exact iff_of_false nofun nofun
  | ok u =>
    constructor
    · intro h
      exact congrArg Except.ok (Except.ok.inj h)
    · intro h
      exact congrArg Except.ok (Except.ok.inj h)

theorem hasColumn_iff (t : Table) (name : String) :
    t.hasColumn name = true ↔ name ∈ t.columnNames := by
  simp [hasColumn, column?, columnNames, List.find?_isSome]

theorem unknownColumns_eq_nil (t : Table) (names : List String) :
    t.unknownColumns names = [] ↔ ∀ name ∈ names, name ∈ t.columnNames := by
  simp [unknownColumns, List.filter_eq_nil_iff, hasColumn_iff]

end BoundSql.Table
