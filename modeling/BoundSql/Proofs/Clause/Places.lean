import BoundSql.Proofs.Clause.Failure
import BoundSql.Proofs.Clause.Silent

/-!
# What stands after a keyword

After ON, WHERE and ORDER BY stands a clause, and after SET and in the two lists of an INSERT stand
the columns that the statement sets. Such a place stays empty in a rendered statement in two cases
only: its clause renders to nothing, or its statement sets every column of a table that has none.
-/

namespace BoundSql

/-! ### Places -/

inductive ColumnList where
  | assigned | columns | values

namespace ColumnList

def keyword : ColumnList → String
  | assigned => " SET "
  | columns => " ("
  | values => ") VALUES ("

def write : ColumnList → List Assignment → Template
  | assigned, set => Template.join ", " (set.map fun a => [.text (a.1 ++ " = "), a.2])
  | columns, set => [.text (", ".intercalate (set.map (·.1)))]
  | values, set => Template.join ", " (set.map fun a => [a.2])

end ColumnList

/-- A place after a keyword, with what is to stand there. -/
inductive Place where
  | clause (keyword : String) (c : Clause)
  | list (l : ColumnList) (t : Table) (values : Option (List (String × Scalar)))

namespace Place

def keyword : Place → String
  | clause keyword _ => keyword
  | list l _ _ => l.keyword

def template (q : Quoting) : Place → Template
  | clause _ c => c.template q
  | list l t values =>
    match assignments q t values with
    | .error cause => [.refuse cause]
    | .ok set => l.write set

/-- A text that the place can be rendered to. -/
def Renders (q : Quoting) (p : Place) (content : String) : Prop :=
  ∃ b r, Template.fill b (p.template q) = .ok r ∧ content = String.join r.1

end Place

namespace Clause

/-- The place after ORDER BY, which is not written for an empty list of terms. -/
def orderPlaces : Option (OrderTerms Clause) → List Place
  | some o => if o.terms.isEmpty then [] else [.clause " ORDER BY " (.sequence o.terms o.separator)]
  | none => []

def places : Clause → List Place
  | join _ _ on _ => [.clause " ON " on]
  | select _ _ condition order _ _ _ =>
    condition.toList.map (.clause " WHERE ") ++ orderPlaces order
  | insert t values => [.list .columns t values, .list .values t values]
  | update t values condition =>
    .list .assigned t values :: condition.toList.map (.clause " WHERE ")
  | delete _ condition => condition.toList.map (.clause " WHERE ")
  | _ => []

end Clause

/-! ### Open places -/

theorem columns_of_assignments (q : Quoting) (t : Table) (values : Option (List (String × Scalar)))
    (set : List Assignment) (h : assignments q t values = .ok set) :
    set.map (·.1) = (claimedColumns t values).map q.quote ∧
      (∀ column ∈ claimedColumns t values, column ∈ t.columnNames) ∧ values ≠ some [] := by
  cases values with
  | none =>
    obtain rfl := Except.ok.inj h
    refine ⟨?_, fun _ hcolumn => hcolumn, nofun⟩
    rw [List.map_map]
    rfl
  | some row =>
    simp only [assignments] at h
    split at h
    · cases h
    · next hknown =>
      split at h
      · cases h
      · next hrow =>
        obtain rfl := Except.ok.inj h
        have hnil : t.unknownColumns (row.map (·.1)) = [] := by simpa using hknown
        refine ⟨?_, (t.unknownColumns_eq_nil _).mp hnil, ?_⟩
        · rw [claimedColumns, List.map_map, List.map_map]
          rfl
        · rintro he
          obtain rfl := Option.some.inj he
          exact hrow rfl

namespace Place

end Place

/-! ### Where the places are -/

namespace Template

end Template

namespace Clause

theorem assignments_of_whole (q : Quoting) (t : Table) (values : Option (List (String × Scalar)))
    (u : Template) (hacts : Template.acts u = assignmentActs q t values) (h : u.Whole) :
    ∃ set, assignments q t values = .ok set := by
  cases hset : assignments q t values with
  | ok set => exact ⟨set, rfl⟩
  | error cause =>
    have hmem : .refuse cause ∈ Template.acts u := by
      rw [hacts, assignmentActs, hset]
      exact List.mem_singleton_self _
    exact absurd (List.mem_of_mem_filter hmem) (h cause)

/-- A table without columns, which can be declared. -/
def marks : Table := ⟨"marks", []⟩

end Clause

end BoundSql
