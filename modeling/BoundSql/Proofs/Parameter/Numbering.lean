import Mathlib.Data.List.Nodup
import BoundSql.Parameter.Binder

/-!
# Numbered names

The name of a numbered use of a key determines both, whatever underscores and digits the key
holds. The number that a binder picks next is the first one above its counter whose name is not
taken.
-/

namespace BoundSql.Binder

/-! ### Names of numbered uses -/

theorem append_cons_inj (xs xs' ys ys' : List Char) (a : Char) (hy : a ∉ ys) (hy' : a ∉ ys')
    (h : xs ++ a :: ys = xs' ++ a :: ys') : xs = xs' ∧ ys = ys' := by
  rcases List.append_eq_append_iff.mp h with ⟨zs, hxs, hys⟩ | ⟨zs, hxs, hys⟩
  · cases zs with
    | nil =>
      have htail : ys = ys' := (List.cons.inj hys).2
      exact ⟨by rw [hxs, List.append_nil], htail⟩
    | cons z zs =>
      have htail : ys = zs ++ a :: ys' := (List.cons.inj hys).2
      exact absurd (by rw [htail]; exact List.mem_append_right _ (List.mem_cons_self ..)) hy
  · cases zs with
    | nil =>
      have htail : ys' = ys := (List.cons.inj hys).2
      exact ⟨by rw [hxs, List.append_nil], htail.symm⟩
    | cons z zs =>
      have htail : ys' = zs ++ a :: ys := (List.cons.inj hys).2
      exact absurd (by rw [htail]; exact List.mem_append_right _ (List.mem_cons_self ..)) hy'

theorem numbered_toList (key : String) (n : Nat) :
    (numbered key n).toList = key.toList ++ '_' :: Nat.toDigits 10 n := by
  simp [numbered]

/-- The last underscore of a numbered name stands before the number, so nothing can be confused:
the first use of `a_1` is `a_1_1` and no use of `a`. -/
theorem numbered_inj (key key' : String) (n n' : Nat) (h : numbered key n = numbered key' n') :
    key = key' ∧ n = n' := by
  have hchars : (numbered key n).toList = (numbered key' n').toList := by rw [h]
  rw [numbered_toList, numbered_toList] at hchars
  obtain ⟨hkey, hdigits⟩ := append_cons_inj _ _ _ _ '_' Nat.underscore_not_in_toDigits
    Nat.underscore_not_in_toDigits hchars
  have hvalue : Nat.ofDigitChars 10 (Nat.toDigits 10 n) 0 = n' := by
    rw [hdigits, Nat.ofDigitChars_ten_toDigits]
  rw [Nat.ofDigitChars_ten_toDigits] at hvalue
  exact ⟨String.toList_inj.mp hkey, hvalue⟩

theorem numbered_injective (key : String) : Function.Injective (numbered key) :=
  fun n n' h => (numbered_inj key key n n' h).2

/-! ### Counters -/

theorem find_setCounter (counters : List (String × Nat)) (key key' : String) (n : Nat) :
    ((setCounter counters key n).find? fun e => decide (e.1 = key')).map (·.2)
      = if key = key' then some n
        else (counters.find? fun e => decide (e.1 = key')).map (·.2) := by
  induction counters with
  | nil => by_cases hk : key = key' <;> simp [setCounter, hk]
  | cons e rest ih =>
    by_cases he : e.1 = key
    · by_cases hk : key = key' <;> simp [setCounter, he, hk]
    · by_cases hk : key = key'
      · have hne : e.1 ≠ key' := hk ▸ he
        simp only [hk, ite_true] at ih
        simp [setCounter, hne, hk, ih]
      · by_cases hk' : e.1 = key'
        · simp only [setCounter, he, ite_false]
          simp [hk, hk']
        · simp only [hk, ite_false] at ih
          simp [setCounter, he, hk, hk', ih]

theorem counter_setCounter (b : Binder) (taken : List String) (p : Params) (key key' : String)
    (n : Nat) :
    counter ⟨setCounter b.counters key n, taken, p⟩ key'
      = if key = key' then n else b.counter key' := by
  simp only [counter]
  rw [find_setCounter]
  by_cases hk : key = key' <;> simp [hk]

/-! ### The next free number -/

theorem nextFree_spec (taken : List String) (key : String) (n fuel : Nat) :
    n < nextFree taken key n fuel ∧
      (∀ m, n < m → m < nextFree taken key n fuel → numbered key m ∈ taken) ∧
      (numbered key (nextFree taken key n fuel) ∈ taken →
        nextFree taken key n fuel = n + fuel + 1) := by
  induction fuel generalizing n with
  | zero =>
    refine ⟨Nat.lt_succ_self n, fun m hm hm' => ?_, fun _ => rfl⟩
    simp only [nextFree] at hm'
    omega
  | succ fuel ih =>
    by_cases ht : numbered key (n + 1) ∈ taken
    · obtain ⟨hlt, hbelow, hlast⟩ := ih (n + 1)
      simp only [nextFree, ht, ite_true]
      refine ⟨by omega, fun m hm hm' => ?_, fun h => by rw [hlast h]; omega⟩
      by_cases hmn : m = n + 1
      · rw [hmn]
        exact ht
      · exact hbelow m (by omega) hm'
    · simp only [nextFree, ht, ite_false]
      refine ⟨Nat.lt_succ_self n, fun m hm hm' => ?_, fun h => h.elim⟩
      omega

theorem length_le_of_numbered_mem (taken : List String) (key : String) (n k : Nat)
    (h : ∀ m, n < m → m < n + k + 1 → numbered key m ∈ taken) : k ≤ taken.length := by
  have hnodup : ((List.range' (n + 1) k).map (numbered key)).Nodup :=
    (List.nodup_range').map (numbered_injective key)
  have hsub : (List.range' (n + 1) k).map (numbered key) ⊆ taken := by
    intro name hname
    obtain ⟨m, hm, rfl⟩ := List.mem_map.mp hname
    have hbounds := List.mem_range'_1.mp hm
    exact h m (by omega) (by omega)
  have hle := List.Nodup.length_le_of_subset hnodup hsub
  rwa [List.length_map, List.length_range'] at hle

theorem nextNumber_spec (b : Binder) (key : String) :
    b.counter key < b.nextNumber key ∧
      (∀ m, b.counter key < m → m < b.nextNumber key → numbered key m ∈ b.taken) ∧
      numbered key (b.nextNumber key) ∉ b.taken := by
  obtain ⟨hlt, hbelow, hlast⟩ := nextFree_spec b.taken key (b.counter key) b.taken.length
  refine ⟨hlt, hbelow, fun hmem => ?_⟩
  -- If the last candidate were taken too, more names of the key would be taken than there are.
  have hend := hlast hmem
  have hlen := length_le_of_numbered_mem b.taken key (b.counter key) (b.taken.length + 1)
    (fun m hm hm' => by
      by_cases hmn : m = b.counter key + b.taken.length + 1
      · rw [hmn, ← hend]
        exact hmem
      · exact hbelow m hm (by rw [hend]; omega))
  omega

end BoundSql.Binder
