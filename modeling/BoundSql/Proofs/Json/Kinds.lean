import BoundSql.Clause.Decode
import BoundSql.Proofs.Json.Members
import BoundSql.Proofs.Json.RoundTrip

/-!
# Kinds in documents

A document in which keys do not repeat and every kind is one of a clause is read back from its
text, and no unknown kind is found in it.
-/

namespace BoundSql

open Clause (strangeKind unknownKind unknownKindOfItems unknownKindOfMembers)

namespace Json

/-- The keys of an object are different, and its kind, if there is one, is one of a clause. -/
def Orderly : Json → Prop
  | object ms => (ms.map (·.1)).Nodup ∧ strangeKind ms = none
  | _ => True

/-- Every part of the document is readable and orderly. -/
def Sound (j : Json) : Prop := ∀ d ∈ j.parts, d.Readable ∧ d.Orderly

theorem sound_null : Sound null := fun d hd => by
  rw [List.mem_singleton.mp hd]
  exact ⟨trivial, trivial⟩

theorem sound_bool (b : Bool) : Sound (bool b) := fun d hd => by
  rw [List.mem_singleton.mp hd]
  exact ⟨trivial, trivial⟩

theorem sound_string (s : String) : Sound (string s) := fun d hd => by
  rw [List.mem_singleton.mp hd]
  exact ⟨trivial, trivial⟩

theorem sound_int (n : Int) (hn : FitsWord n) : Sound (int n) := fun d hd => by
  rw [List.mem_singleton.mp hd]
  exact ⟨hn, trivial⟩

theorem sound_array (items : List Json) (h : ∀ j ∈ items, j.Sound) : Sound (array items) :=
  (forall_parts_array _ items).mpr ⟨⟨trivial, trivial⟩, h⟩

theorem sound_object (ms : List (String × Json)) (hkeys : (ms.map (·.1)).Nodup)
    (hkind : strangeKind ms = none) (h : ∀ m ∈ ms, m.2.Sound) : Sound (object ms) :=
  (forall_parts_object _ ms).mpr ⟨⟨trivial, hkeys, hkind⟩, h⟩

/-! ### Unknown kinds -/

theorem unknownKindOfItems_eq_none (items : List Json) :
    unknownKindOfItems items = none ↔ ∀ j ∈ items, unknownKind j = none := by
  induction items with
  | nil => simp [unknownKindOfItems]
  | cons j js ih => rw [unknownKindOfItems, Option.or_eq_none_iff, ih, List.forall_mem_cons]

theorem unknownKindOfMembers_eq_none (ms : List (String × Json)) :
    unknownKindOfMembers ms = none ↔ ∀ m ∈ ms, unknownKind m.2 = none := by
  induction ms with
  | nil => simp [unknownKindOfMembers]
  | cons m ms ih => rw [unknownKindOfMembers, Option.or_eq_none_iff, ih, List.forall_mem_cons]

theorem mem_addMember (key : String) (j : Json) (ms : List (String × Json)) :
    ∀ m ∈ addMember key j ms, m = (key, j) ∨ m ∈ ms := by
  induction ms with
  | nil => simp [addMember]
  | cons n ms ih =>
    intro m hm
    obtain ⟨k, i⟩ := n
    rw [addMember] at hm
    split at hm
    · exact Or.inr hm
    · split at hm
      · exact List.mem_cons.mp hm
      · rcases List.mem_cons.mp hm with he | hm
        · exact Or.inr (he ▸ List.mem_cons_self ..)
        · exact (ih m hm).imp_right (List.mem_cons_of_mem _)

theorem mem_sortedMembers (ms : List (String × Json)) :
    ∀ m ∈ sortedMembers ms, ∃ n ∈ ms, m.2 = n.2.sorted := by
  induction ms with
  | nil => exact fun m hm => absurd hm List.not_mem_nil
  | cons n ms ih =>
    intro m hm
    rcases mem_addMember _ _ _ m hm with rfl | hm
    · exact ⟨n, List.mem_cons_self .., rfl⟩
    · obtain ⟨n', hn', he⟩ := ih m hm
      exact ⟨n', List.mem_cons_of_mem _ hn', he⟩

theorem strangeKind_sortedMembers (ms : List (String × Json)) (h : (ms.map (·.1)).Nodup) :
    strangeKind (sortedMembers ms) = strangeKind ms := by
  rw [strangeKind, strangeKind, member?_sortedMembers "kind" ms h]
  cases member? ms "kind" with
  | none => rfl
  | some j => cases j <;> rfl

/-- The order of members does not hide a kind. -/
theorem unknownKind_sorted (j : Json) (hj : j.Sound) : unknownKind j.sorted = none := by
  induction j using Json.induct with
  | array items ih =>
    rw [Sound, forall_parts_array] at hj
    rw [sorted, unknownKind, unknownKindOfItems_eq_none, sortedItems_eq_map]
    intro i hi
    obtain ⟨k, hk, rfl⟩ := List.mem_map.mp hi
    exact ih k hk (hj.2 k hk)
  | object ms ih =>
    rw [Sound, forall_parts_object] at hj
    obtain ⟨⟨_, hkeys, hkind⟩, hbelow⟩ := hj
    rw [sorted, unknownKind, strangeKind_sortedMembers ms hkeys, hkind, Option.none_or,
      unknownKindOfMembers_eq_none]
    intro m hm
    obtain ⟨n, hn, he⟩ := mem_sortedMembers ms m hm
    rw [he]
    exact ih n hn (hbelow n hn)
  | _ => rfl

end Json

end BoundSql
