import BoundSql.Json.Record
import BoundSql.Proofs.Json.Parts

/-!
# Members by key

The order in which the reader leaves the members of an object does not matter to those who look
them up. A record shows some members when looking up a field of it gives the member of that key.
-/

namespace BoundSql

namespace Json

theorem mem_keys_addMember (key name : String) (j : Json) (ms : List (String × Json)) :
    name ∈ (addMember key j ms).map (·.1) ↔ name = key ∨ name ∈ ms.map (·.1) := by
  induction ms with
  | nil => simp [addMember]
  | cons m ms ih =>
    obtain ⟨k, i⟩ := m
    rw [addMember]
    split
    · next hk => simp [hk]
    · split
      · simp
      · simp only [List.map_cons, List.mem_cons, ih]
        tauto

theorem member?_addMember (key name : String) (j : Json) (ms : List (String × Json))
    (h : key ∉ ms.map (·.1)) :
    member? (addMember key j ms) name = if key = name then some j else member? ms name := by
  induction ms with
  | nil => by_cases hk : key = name <;> simp [addMember, member?, hk]
  | cons m ms ih =>
    obtain ⟨k, i⟩ := m
    simp only [List.map_cons, List.mem_cons, not_or] at h
    rw [addMember, if_neg h.1]
    split
    · by_cases hk : key = name <;> simp [member?, hk]
    · have hrest := ih h.2
      simp only [member?] at hrest ⊢
      by_cases hk : k = name
      · have hne : key ≠ name := fun he => h.1 (he.trans hk.symm)
        simp [hk, hne]
      · simp [hk, hrest]

theorem member?_eq_some (ms : List (String × Json)) (key : String) (j : Json)
    (h : (ms.map (·.1)).Nodup) : member? ms key = some j ↔ (key, j) ∈ ms := by
  rw [member?, Option.map_eq_some_iff]
  constructor
  · rintro ⟨m, hm, rfl⟩
    have hkey : m.1 = key := by simpa using List.find?_some hm
    rw [← hkey]
    exact List.mem_of_find?_eq_some hm
  · intro hj
    refine ⟨(key, j), ?_, rfl⟩
    rw [List.find?_eq_some_iff_append]
    obtain ⟨before, after, rfl⟩ := List.append_of_mem hj
    refine ⟨by simp, before, after, rfl, fun m hm => ?_⟩
    rw [List.map_append, List.nodup_append] at h
    have hne := h.2.2 m.1 (List.mem_map_of_mem hm) key (List.mem_map_of_mem (List.mem_cons_self ..))
    simpa using hne

theorem mem_keys_sortedMembers (name : String) (ms : List (String × Json)) :
    name ∈ (sortedMembers ms).map (·.1) ↔ name ∈ ms.map (·.1) := by
  induction ms with
  | nil => rfl
  | cons m ms ih =>
    obtain ⟨key, j⟩ := m
    rw [sortedMembers, mem_keys_addMember, ih, List.map_cons, List.mem_cons]

/-- Members of different keys are found under their keys in any order. -/
theorem member?_sortedMembers (name : String) (ms : List (String × Json))
    (h : (ms.map (·.1)).Nodup) : member? (sortedMembers ms) name = (member? ms name).map sorted := by
  induction ms with
  | nil => rfl
  | cons m ms ih =>
    obtain ⟨key, j⟩ := m
    obtain ⟨hkey, hnodup⟩ := List.nodup_cons.mp h
    rw [sortedMembers, member?_addMember _ _ _ _ (mt (mem_keys_sortedMembers key ms).mp hkey),
      ih hnodup]
    by_cases hk : key = name <;> simp [member?, hk]

end Json

namespace Record

variable {α β : Type}

/-- The fields of the record are the members of their names, as `f` gives them. -/
structure Shows (r : Record α) (f : Json → α) (ms : List (String × Json)) : Prop where
  named : ∃ members, r = .named members
  field : ∀ index name, r.field? index name = (Json.member? ms name).map f

theorem Shows.part {r : Record α} {f : Json → α} {ms : List (String × Json)} (h : r.Shows f ms)
    (index : Nat) (name : String) (decode : α → Except FormFault β) {j : Json} {x : β}
    (hj : Json.member? ms name = some j) (hx : decode (f j) = .ok x) :
    r.part index name decode = .ok (some x) := by
  rw [Record.part, h.field, hj, Option.map_some]
  exact congrArg (Except.map some) hx

theorem Shows.part_none {r : Record α} {f : Json → α} {ms : List (String × Json)}
    (h : r.Shows f ms) (index : Nat) (name : String) (decode : α → Except FormFault β)
    (hj : Json.member? ms name = none) : r.part index name decode = .ok none := by
  rw [Record.part, h.field, hj, Option.map_none]

theorem field?_map (members : List (String × α)) (f : α → β) (index : Nat) (name : String) :
    (named (members.map fun m => (m.1, f m.2))).field? index name
      = ((named members).field? index name).map f := by
  simp only [field?, List.find?_map, Option.map_map]
  rfl

theorem shows_sortedMembers (f : Json → α) (ms : List (String × Json))
    (h : (ms.map (·.1)).Nodup) :
    (named ((Json.sortedMembers ms).map fun m => (m.1, f m.2))).Shows (fun j => f j.sorted) ms where
  named := ⟨_, rfl⟩
  field index name := by
    have hmember : (named (Json.sortedMembers ms)).field? index name
        = (Json.member? ms name).map Json.sorted := Json.member?_sortedMembers name ms h
    rw [field?_map, hmember, Option.map_map]
    rfl

theorem record_sorted (ms : List (String × Json)) (h : (ms.map (·.1)).Nodup) :
    ∃ r, (Json.object ms).sorted.record = .ok r ∧ r.Shows Json.sorted ms := by
  refine ⟨_, rfl, ?_⟩
  have hshows := shows_sortedMembers id ms h
  simpa using hshows

end Record

end BoundSql
