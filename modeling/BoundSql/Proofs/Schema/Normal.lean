import BoundSql.Proofs.Scalar.Normal
import BoundSql.Schema.Table

/-!
# Tables in documents

A table comes back from its document with the defaults of its columns in normal form; a default
that is null then is none. Sources and columns come back with their tables in normal form.
-/

namespace BoundSql

theorem map_eq_self_iff {α : Type} (f : α → α) (l : List α) :
    l.map f = l ↔ ∀ x ∈ l, f x = x := by
  have h := List.map_inj_left (l := l) (f := f) (g := id)
  rwa [List.map_id] at h

/-- The default that stands for one after its document is read. -/
def normalDefault (d : Option Scalar) : Option Scalar :=
  d.bind fun v => if v.normal = .null then none else some v.normal

def Column.normal (c : Column) : Column :=
  { c with options := { c.options with default := normalDefault c.options.default } }

namespace Table

def normal (t : Table) : Table := { t with columns := t.columns.map Column.normal }

/-- The defaults of the columns that have one. -/
def defaults (t : Table) : List Scalar := t.columns.filterMap fun c => c.options.default

theorem normalDefault_normalDefault (d : Option Scalar) :
    normalDefault (normalDefault d) = normalDefault d := by
  cases d with
  | none => rfl
  | some v =>
    by_cases hv : v.normal = .null
    · simp [normalDefault, hv]
    · simp [normalDefault, hv, Scalar.normal_normal]

theorem normalDefault_eq_iff (d : Option Scalar) :
    normalDefault d = d ↔ ∀ v ∈ d, v.normal = v ∧ v ≠ .null := by
  cases d with
  | none => simp [normalDefault]
  | some v =>
    by_cases hv : v.normal = .null
    · simp only [normalDefault, Option.bind_some, hv, ite_true, Option.mem_some_iff, forall_eq']
      constructor
      · intro h
        cases h
      · rintro ⟨rfl, hne⟩
        exact absurd rfl hne
    · simp only [normalDefault, Option.bind_some, hv, ite_false, Option.some.injEq,
        Option.mem_some_iff, forall_eq']
      exact ⟨fun h => ⟨h, h ▸ hv⟩, And.left⟩

theorem normal_normal (t : Table) : t.normal.normal = t.normal := by
  simp only [normal, List.map_map, Table.mk.injEq, true_and]
  refine List.map_congr_left fun c _ => ?_
  simp only [Function.comp, Column.normal, normalDefault_normalDefault]

theorem normal_eq_iff (t : Table) :
    t.normal = t ↔ ∀ v ∈ t.defaults, v.normal = v ∧ v ≠ .null := by
  have hcolumn (c : Column) : c.normal = c ↔ normalDefault c.options.default = c.options.default := by
    constructor
    · intro h
      exact congrArg (·.options.default) h
    · intro h
      rw [Column.normal, h]
  have htable : t.normal = t ↔ ∀ c ∈ t.columns, c.normal = c := by
    rw [← map_eq_self_iff]
    exact ⟨fun h => congrArg Table.columns h, fun h => congrArg (Table.mk t.name) h⟩
  simp only [htable, hcolumn, normalDefault_eq_iff, defaults, List.mem_filterMap]
  constructor
  · rintro h v ⟨c, hc, hv⟩
    exact h c hc v hv
  · intro h c hc v hv
    exact h v ⟨c, hc, hv⟩

theorem columnNames_normal (t : Table) : t.normal.columnNames = t.columnNames := by
  simp only [columnNames, normal, List.map_map]
  rfl

theorem wellFormed_normal (t : Table) : t.normal.WellFormed ↔ t.WellFormed := by
  simp only [WellFormed, columnNames_normal]
  simp [normal, Column.normal]

end Table

/-! ### Sources -/

def Alias.mapTable (g : Table → Table) (a : Alias) : Alias := { a with table := g a.table }

def Source.mapTable (g : Table → Table) : Source → Source
  | .table t => .table (g t)
  | .aliased a => .aliased (a.mapTable g)

def ColumnRef.mapTable (g : Table → Table) (c : ColumnRef) : ColumnRef :=
  { c with source := c.source.map (Source.mapTable g) }

theorem Source.mapTable_eq_iff (s : Source) :
    s.mapTable Table.normal = s ↔ ∀ v ∈ s.base.defaults, v.normal = v ∧ v ≠ .null := by
  rw [← Table.normal_eq_iff]
  cases s with
  | table t => simp [Source.mapTable, Source.base]
  | aliased a =>
    simp only [Source.mapTable, Source.base, Source.aliased.injEq, Alias.mapTable]
    exact ⟨fun h => congrArg Alias.table h, fun h => by rw [h]⟩

end BoundSql
