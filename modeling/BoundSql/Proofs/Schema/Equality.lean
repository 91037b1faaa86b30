import BoundSql.Proofs.Schema.Normal

/-!
# Equality of tables

Equality of tables compares the defaults of their columns as values, so that a table with a NaN
among its defaults differs from itself, and every other table is the same as itself. It is
symmetric and transitive in any case.
-/

namespace BoundSql

/-! ### Being the same as itself -/

theorem Binary64.same_self (x : Binary64) : x.same x = !x.isNaN := by
  unfold Binary64.same
  cases x.isNaN <;> simp

def Scalar.isNaN : Scalar → Bool
  | float x => x.isNaN
  | _ => false

theorem Scalar.same_self (v : Scalar) : v.same v = !v.isNaN := by
  cases v with
  | float x => exact x.same_self
  | _ => simp [Scalar.same, Scalar.isNaN]

theorem Column.same_self (c : Column) : c.same c = !c.options.default.any Scalar.isNaN := by
  have hdefault : Scalar.sameOption c.options.default c.options.default
      = !c.options.default.any Scalar.isNaN := by
    cases c.options.default with
    | none => rfl
    | some v => exact v.same_self
  simp [Column.same, ColumnOptions.same, hdefault]

namespace Table

/-- A NaN is the default of one of the columns. -/
def hasNaN (t : Table) : Bool := t.defaults.any Scalar.isNaN

theorem isEqv_self (cs : List Column) : cs.isEqv cs Column.same = cs.all fun c => c.same c := by
  induction cs with
  | nil => rfl
  | cons c cs ih => rw [List.isEqv, ih, List.all_cons]

theorem same_self (t : Table) : t.same t = !t.hasNaN := by
  have hcolumns : (t.columns.all fun c => c.same c) = !t.hasNaN := by
    rw [hasNaN, defaults, List.any_filterMap, List.not_any_eq_all_not]
    simp only [Column.same_self]
    rfl
  rw [same, isEqv_self, hcolumns, decide_eq_true rfl, Bool.true_and]

end Table

theorem Alias.same_self (a : Alias) : a.same a = !a.table.hasNaN := by
  rw [same, a.table.same_self, decide_eq_true rfl, Bool.and_true]

/-! ### Symmetry and transitivity -/

theorem Binary64.same_comm (x y : Binary64) : x.same y = y.same x := by
  unfold same
  rw [Bool.and_comm (!x.isNaN), Bool.and_comm x.isZero, BEq.comm]

theorem Binary64.same_trans (x y z : Binary64) (hxy : x.same y = true) (hyz : y.same z = true) :
    x.same z = true := by
  simp only [same, Bool.and_eq_true, Bool.or_eq_true, beq_iff_eq] at hxy hyz ⊢
  obtain ⟨⟨hx, _⟩, hxy⟩ := hxy
  obtain ⟨⟨_, hz⟩, hyz⟩ := hyz
  refine ⟨⟨hx, hz⟩, ?_⟩
  rcases hxy with rfl | ⟨hx, hy⟩
  · exact hyz
  · rcases hyz with rfl | ⟨_, hz⟩
    · exact Or.inr ⟨hx, hy⟩
    · exact Or.inr ⟨hx, hz⟩

theorem Scalar.same_comm (v w : Scalar) : v.same w = w.same v := by
  cases v <;> cases w <;> simp only [same, Binary64.same_comm, eq_comm]

/-- Floats are compared as numbers, and what is not two floats is the same only if it is equal. -/
theorem Scalar.same_cases (v w : Scalar) (h : v.same w = true) :
    v = w ∨ ∃ x y, v = float x ∧ w = float y ∧ x.same y = true := by
  cases v with
  | float x =>
    cases w with
    | float y => exact Or.inr ⟨x, y, rfl, rfl, h⟩
    | _ => cases h
  | _ =>
    refine Or.inl ?_
    cases w <;> first
      | rfl
      | cases h
      | exact congrArg _ (of_decide_eq_true h)

theorem Scalar.same_trans (u v w : Scalar) (huv : u.same v = true) (hvw : v.same w = true) :
    u.same w = true := by
  rcases u.same_cases v huv with rfl | ⟨x, y, rfl, rfl, hxy⟩
  · exact hvw
  · rcases Scalar.same_cases _ w hvw with rfl | ⟨_, z, hy, rfl, hyz⟩
    · exact huv
    · obtain rfl := Scalar.float.inj hy
      exact x.same_trans y z hxy hyz

theorem Scalar.sameOption_comm (v w : Option Scalar) : sameOption v w = sameOption w v := by
  cases v <;> cases w <;> simp only [sameOption, same_comm]

theorem Scalar.sameOption_trans (u v w : Option Scalar) (huv : sameOption u v = true)
    (hvw : sameOption v w = true) : sameOption u w = true := by
  cases u <;> cases v <;> first | cases huv | skip
  all_goals cases w <;> first | cases hvw | skip
  · rfl
  · exact same_trans _ _ _ huv hvw

theorem Column.same_comm (c d : Column) : c.same d = d.same c := by
  simp only [same, ColumnOptions.same, Scalar.sameOption_comm c.options.default, eq_comm]

theorem Column.same_trans (b c d : Column) (hbc : b.same c = true) (hcd : c.same d = true) :
    b.same d = true := by
  simp only [same, ColumnOptions.same, Bool.and_eq_true, decide_eq_true_eq] at hbc hcd ⊢
  obtain ⟨⟨hname, htype⟩, ⟨⟨⟨⟨hlength, hnullable⟩, hprimary⟩, hauto⟩, hreference⟩, hdefault⟩ := hbc
  rw [hname, htype, hlength, hnullable, hprimary, hauto, hreference]
  exact ⟨hcd.1, hcd.2.1, Scalar.sameOption_trans _ _ _ hdefault hcd.2.2⟩

namespace Table

theorem isEqv_comm (cs ds : List Column) : cs.isEqv ds Column.same = ds.isEqv cs Column.same := by
  induction cs generalizing ds with
  | nil => cases ds <;> rfl
  | cons c cs ih =>
    cases ds with
    | nil => rfl
    | cons d ds => rw [List.isEqv, List.isEqv, ih, c.same_comm]

theorem isEqv_trans (bs cs ds : List Column) (hbc : bs.isEqv cs Column.same = true)
    (hcd : cs.isEqv ds Column.same = true) : bs.isEqv ds Column.same = true := by
  induction bs generalizing cs ds with
  | nil =>
    cases cs with
    | nil => exact hcd
    | cons c cs => cases hbc
  | cons b bs ih =>
    cases cs with
    | nil => cases hbc
    | cons c cs =>
      cases ds with
      | nil => cases hcd
      | cons d ds =>
        rw [List.isEqv, Bool.and_eq_true] at hbc hcd ⊢
        exact ⟨b.same_trans c d hbc.1 hcd.1, ih cs ds hbc.2 hcd.2⟩

theorem same_comm (s t : Table) : s.same t = t.same s := by
  simp only [same, isEqv_comm s.columns, eq_comm]

theorem same_trans (s t u : Table) (hst : s.same t = true) (htu : t.same u = true) :
    s.same u = true := by
  simp only [same, Bool.and_eq_true, decide_eq_true_eq] at hst htu ⊢
  exact ⟨hst.1.trans htu.1, isEqv_trans _ _ _ hst.2 htu.2⟩

end Table

theorem Alias.same_comm (a b : Alias) : a.same b = b.same a := by
  simp only [same, a.table.same_comm, eq_comm]

theorem Alias.same_trans (a b c : Alias) (hab : a.same b = true) (hbc : b.same c = true) :
    a.same c = true := by
  simp only [same, Bool.and_eq_true, decide_eq_true_eq] at hab hbc ⊢
  exact ⟨a.table.same_trans _ _ hab.1 hbc.1, hab.2.trans hbc.2⟩

end BoundSql
