import Mathlib.Data.String.Basic
import BoundSql.Proofs.Json.Kinds

/-!
# Order of read members

A document that was read has the members of every object in the order of their keys, and no key
twice.
-/

namespace BoundSql.Json

/-- The keys of the members ascend. -/
def Ascending (ms : List (String × Json)) : Prop := (ms.map (·.1)).Pairwise (· < ·)

theorem Ascending.nodup {ms : List (String × Json)} (h : Ascending ms) :
    (ms.map (·.1)).Nodup := h.imp ne_of_lt

theorem ascending_addMember (key : String) (j : Json) (ms : List (String × Json))
    (h : Ascending ms) : Ascending (addMember key j ms) := by
  induction ms with
  | nil => exact List.pairwise_singleton ..
  | cons m ms ih =>
    obtain ⟨k, i⟩ := m
    obtain ⟨hk, hms⟩ := List.pairwise_cons.mp h
    rw [addMember]
    split
    · exact h
    · next hne =>
      split
      · next hlt =>
        refine List.pairwise_cons.mpr ⟨fun name hname => ?_, h⟩
        rcases List.mem_cons.mp hname with rfl | hname
        · exact hlt
        · exact lt_trans hlt (hk name hname)
      · next hle =>
        refine List.pairwise_cons.mpr ⟨fun name hname => ?_, ih hms⟩
        rcases (mem_keys_addMember key name j ms).mp hname with rfl | hname
        · exact lt_of_le_of_ne (not_lt.mp hle) (Ne.symm hne)
        · exact hk name hname

/-- The members of an object have ascending keys. -/
def OwnOrdered : Json → Prop
  | object ms => Ascending ms
  | _ => True

/-- The members of every object in the document have ascending keys. -/
def Ordered (j : Json) : Prop := ∀ d ∈ j.parts, d.OwnOrdered

theorem ordered_array (items : List Json) (h : ∀ j ∈ items, j.Ordered) : Ordered (array items) :=
  (forall_parts_array _ items).mpr ⟨trivial, h⟩

theorem ordered_object (ms : List (String × Json)) (hkeys : Ascending ms)
    (h : ∀ m ∈ ms, m.2.Ordered) : Ordered (object ms) :=
  (forall_parts_object _ ms).mpr ⟨hkeys, h⟩

theorem ordered_of_scalar? (j : Json) (h : j.scalar?.isSome) : j.Ordered := by
  intro d hd
  cases j with
  | array items => cases h
  | object ms => cases h
  | _ => rw [List.mem_singleton.mp hd]; trivial

/-! ### Scalars -/

theorem scalar?_of_finishFloat (negative : Bool) (significand : Nat) (exponent : Int)
    (cs rest : List Char) (j : Json)
    (h : finishFloat negative significand exponent cs = some (j, rest)) : j.scalar?.isSome := by
  have hscaled : ∀ (x : Option Binary64) (cs : List Char),
      x.map (fun x => (float x, cs)) = some (j, rest) → j.scalar?.isSome := by
    intro x cs hx
    obtain ⟨y, _, hy⟩ := Option.map_eq_some_iff.mp hx
    cases hy
    rfl
  simp only [finishFloat] at h
  split at h
  · split at h
    · split at h
      · cases h
      · split at h
        · split at h
          · cases h
          · cases h
            rfl
        · exact hscaled _ _ h
    · exact hscaled _ _ h
  · exact hscaled _ _ h

theorem scalar?_of_finishNumber (negative : Bool) (whole cs rest : List Char) (j : Json)
    (h : finishNumber negative whole cs = some (j, rest)) : j.scalar?.isSome := by
  simp only [finishNumber] at h
  split at h
  · split at h
    · cases h
    · exact scalar?_of_finishFloat _ _ _ _ rest j h
  · split at h
    · exact scalar?_of_finishFloat _ _ _ _ rest j h
    · split at h
      · cases h
        rfl
      · split at h <;> cases h <;> rfl

theorem scalar?_of_readNumber (negative : Bool) (cs rest : List Char) (j : Json)
    (h : readNumber negative cs = some (j, rest)) : j.scalar?.isSome := by
  simp only [readNumber] at h
  split at h
  · cases h
  · cases h
  · exact scalar?_of_finishNumber negative _ _ rest j h

theorem eq_of_readWord (word : String) (i j : Json) (cs rest : List Char)
    (h : readWord word i cs = some (j, rest)) : j = i := by
  rw [readWord] at h
  split at h
  · exact (Prod.mk.inj (Option.some.inj h)).1.symm
  · cases h

/-! ### Documents -/

/-- What is read with some fuel is ordered. -/
structure ReadsOrdered (fuel : Nat) : Prop where
  value : ∀ depth cs j rest, readValue fuel depth cs = some (j, rest) → j.Ordered
  items : ∀ depth cs js rest, readItems fuel depth cs = some (js, rest) → ∀ j ∈ js, j.Ordered
  members : ∀ depth cs ms rest, readMembers fuel depth cs = some (ms, rest) →
    Ascending ms ∧ ∀ m ∈ ms, m.2.Ordered

theorem ordered_readValue (fuel depth : Nat) (cs rest : List Char) (j : Json)
    (hfuel : ReadsOrdered fuel) (h : readValue (fuel + 1) depth cs = some (j, rest)) :
    j.Ordered := by
  rw [readValue] at h
  -- One case for every character that a document can start with.
  split at h
  · cases h
  · obtain ⟨e, _, he⟩ := Option.map_eq_some_iff.mp h
    cases he
    exact ordered_of_scalar? _ rfl
  · split at h
    · cases h
    · split at h
      · cases h
        exact ordered_array [] (List.forall_mem_nil _)
      · obtain ⟨⟨items, cs'⟩, hitems, he⟩ := Option.map_eq_some_iff.mp h
        cases he
        exact ordered_array items (hfuel.items _ _ items rest hitems)
  · split at h
    · cases h
    · split at h
      · cases h
        exact ordered_object [] List.Pairwise.nil (List.forall_mem_nil _)
      · obtain ⟨⟨ms, cs'⟩, hmembers, he⟩ := Option.map_eq_some_iff.mp h
        cases he
        obtain ⟨hkeys, hvalues⟩ := hfuel.members _ _ ms rest hmembers
        exact ordered_object ms hkeys hvalues
  · exact ordered_of_scalar? j (scalar?_of_readNumber true _ rest j h)
  · split at h
    · exact ordered_of_scalar? j (scalar?_of_readNumber false _ rest j h)
    · split at h
      · rw [eq_of_readWord _ _ j _ rest h]
        exact ordered_of_scalar? _ rfl
      · split at h
        · rw [eq_of_readWord _ _ j _ rest h]
          exact ordered_of_scalar? _ rfl
        · split at h
          · rw [eq_of_readWord _ _ j _ rest h]
            exact ordered_of_scalar? _ rfl
          · cases h

theorem ordered_readItems (fuel depth : Nat) (cs rest : List Char) (js : List Json)
    (hfuel : ReadsOrdered fuel) (h : readItems (fuel + 1) depth cs = some (js, rest)) :
    ∀ j ∈ js, j.Ordered := by
  rw [readItems] at h
  split at h
  · cases h
  · next j cs' hvalue =>
    have hj := hfuel.value depth cs j cs' hvalue
    split at h
    · cases h
      exact List.forall_mem_singleton.mpr hj
    · obtain ⟨⟨items, cs'⟩, hitems, he⟩ := Option.map_eq_some_iff.mp h
      cases he
      exact List.forall_mem_cons.mpr ⟨hj, hfuel.items _ _ items rest hitems⟩
    · cases h

theorem ordered_readMembers (fuel depth : Nat) (cs rest : List Char) (ms : List (String × Json))
    (hfuel : ReadsOrdered fuel) (h : readMembers (fuel + 1) depth cs = some (ms, rest)) :
    Ascending ms ∧ ∀ m ∈ ms, m.2.Ordered := by
  rw [readMembers] at h
  split at h
  · split at h
    · cases h
    · split at h
      · split at h
        · cases h
        · next j cs' hvalue =>
          have hj := hfuel.value depth _ j cs' hvalue
          split at h
          · cases h
            exact ⟨List.pairwise_singleton .., List.forall_mem_singleton.mpr hj⟩
          · obtain ⟨⟨ns, cs''⟩, hmembers, he⟩ := Option.map_eq_some_iff.mp h
            cases he
            obtain ⟨hkeys, hvalues⟩ := hfuel.members _ _ ns rest hmembers
            refine ⟨ascending_addMember _ j ns hkeys, fun m hm => ?_⟩
            rcases mem_addMember _ j ns m hm with rfl | hm
            · exact hj
            · exact hvalues m hm
          · cases h
      · cases h
  · cases h

theorem readsOrdered (fuel : Nat) : ReadsOrdered fuel := by
  induction fuel with
  | zero =>
    -- Without fuel nothing is read.
    constructor <;> intro depth cs out rest h <;> cases h
  | succ fuel ih =>
    exact {
      value := fun depth cs j rest => ordered_readValue fuel depth cs rest j ih
      items := fun depth cs js rest => ordered_readItems fuel depth cs rest js ih
      members := fun depth cs ms rest => ordered_readMembers fuel depth cs rest ms ih }

/-- The members of every object in a document that was read have ascending keys. -/
theorem ordered_of_parse (text : String) (j : Json) (h : parse text = .ok j) : j.Ordered := by
  rw [parse] at h
  split at h
  · next i rest hfront =>
    split at h
    · cases h
      exact (readsOrdered _).value _ _ _ rest hfront
    · cases h
  · cases h

end BoundSql.Json
