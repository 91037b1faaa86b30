import BoundSql.Json.Record

/-!
# Fields of records

What is known of all parts of a record is known of the part that a field was read from. A reader
that succeeds has read each of its required fields, and a field of a value of its own has that
value or was read as well.
-/

namespace BoundSql

theorem bind_eq_ok {ε α β : Type} (x : Except ε α) (f : α → Except ε β) (b : β) :
    x >>= f = .ok b ↔ ∃ a, x = .ok a ∧ f a = .ok b := by
  constructor
  · intro h
    cases x with
    | error e => cases h
    | ok a => exact ⟨a, rfl, h⟩
  · intro h
    obtain ⟨a, rfl, ha⟩ := h
    exact ha

theorem bind_eq_error {ε α β : Type} (x : Except ε α) (f : α → Except ε β) (e : ε) :
    x >>= f = .error e ↔ x = .error e ∨ ∃ a, x = .ok a ∧ f a = .error e := by
  cases x with
  | error e' =>
    have hbind : (Except.error e' >>= f) = .error e' := rfl
    simp [hbind]
  | ok a =>
    have hbind : (Except.ok a >>= f) = f a := rfl
    simp [hbind]

theorem pure_eq_ok {ε α : Type} (a b : α) : (pure a : Except ε α) = .ok b ↔ a = b :=
  Iff.of_eq (Except.ok.injEq a b)

theorem map_eq_ok {ε α β : Type} (x : Except ε α) (f : α → β) (b : β) :
    x.map f = .ok b ↔ ∃ a, x = .ok a ∧ f a = b := by
  constructor
  · intro h
    cases x with
    | error e => cases h
    | ok a => exact ⟨a, rfl, Except.ok.inj h⟩
  · intro h
    obtain ⟨a, rfl, rfl⟩ := h
    rfl

theorem mapError_eq_ok {ε ε' α : Type} (x : Except ε α) (f : ε → ε') (a : α) :
    x.mapError f = .ok a ↔ x = .ok a := by
  constructor
  · intro h
    cases x with
    | error e => cases h
    | ok b => exact congrArg Except.ok (Except.ok.inj h)
  · intro h
    rw [h]
    rfl

theorem of_mem_mapM {ε α β : Type} (f : α → Except ε β) (xs : List α) (ys : List β)
    (h : xs.mapM f = .ok ys) : ∀ y ∈ ys, ∃ x ∈ xs, f x = .ok y := by
  induction xs generalizing ys with
  | nil =>
    rw [List.mapM_nil, pure_eq_ok] at h
    simp [← h]
  | cons x xs ih =>
    simp only [List.mapM_cons, bind_eq_ok, pure_eq_ok] at h
    obtain ⟨y, hy, rest, hrest, rfl⟩ := h
    refine List.forall_mem_cons.mpr ⟨⟨x, List.mem_cons_self .., hy⟩, fun z hz => ?_⟩
    obtain ⟨w, hw, hfw⟩ := ih rest hrest z hz
    exact ⟨w, List.mem_cons_of_mem _ hw, hfw⟩

namespace Record

variable {α β : Type}

/-- The parts of the record. -/
def values : Record α → List α
  | named members => members.map (·.2)
  | ordered items => items

theorem mem_values_of_field? (r : Record α) (index : Nat) (name : String) (x : α)
    (h : r.field? index name = some x) : x ∈ r.values := by
  cases r with
  | named members =>
    obtain ⟨m, hm, rfl⟩ := Option.map_eq_some_iff.mp h
    exact List.mem_map_of_mem (List.mem_of_find?_eq_some hm)
  | ordered items => exact List.mem_of_getElem? h

theorem part_eq_some (r : Record α) (index : Nat) (name : String)
    (decode : α → Except FormFault β) (y : β) (h : r.part index name decode = .ok (some y)) :
    ∃ x ∈ r.values, decode x = .ok y := by
  rw [part] at h
  split at h
  · next x hx =>
    obtain ⟨z, hz, he⟩ := (map_eq_ok _ _ _).mp h
    exact ⟨x, r.mem_values_of_field? index name x hx, Option.some.inj he ▸ hz⟩
  · cases h

theorem required_eq_ok (r : Record α) (index : Nat) (name : String)
    (decode : α → Except FormFault β) (y : β)
    (h : required (r.part index name decode) = .ok y) : ∃ x ∈ r.values, decode x = .ok y := by
  apply r.part_eq_some index name decode y
  cases hpart : r.part index name decode with
  | error f => rw [hpart] at h; cases h
  | ok found =>
    rw [hpart] at h
    cases found with
    | none => cases h
    | some z => rw [Except.ok.inj h]

theorem orElse_eq_ok (r : Record α) (index : Nat) (name : String)
    (decode : α → Except FormFault β) (default y : β)
    (h : orElse (r.part index name decode) default = .ok y) :
    y = default ∨ ∃ x ∈ r.values, decode x = .ok y := by
  obtain ⟨found, hpart, hfound⟩ := (map_eq_ok _ _ _).mp h
  cases found with
  | none => exact Or.inl hfound.symm
  | some z => exact Or.inr (r.part_eq_some index name decode y (by rw [hpart, ← hfound]; rfl))

end Record

end BoundSql
