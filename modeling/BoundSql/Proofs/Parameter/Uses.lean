import Mathlib.Data.Nat.Nth
import BoundSql.Proofs.Parameter.Sites

/-!
# Uses of keys

When some names are claimed beforehand and only keys are used after that, the uses of a key get
the free numbers of that key one after the other, whatever other keys are used between them. With
nothing claimed these are 1, 2, 3 and so on.
-/

namespace BoundSql

/-- A use of a key with a value. -/
abbrev Use := String × Scalar

namespace Use

def site (u : Use) : Site := .bind u.1 u.2

/-- The number of uses of a key before a position. -/
def before (uses : List Use) (key : String) (i : Nat) : Nat :=
  (uses.take i).countP fun u => decide (u.1 = key)

theorem before_cons (u : Use) (uses : List Use) (key : String) (i : Nat) :
    before (u :: uses) key (i + 1) = before uses key i + if u.1 = key then 1 else 0 := by
  simp only [before, List.take_succ_cons, List.countP_cons, decide_eq_true_eq]

theorem carried_uses (uses : List Use) (names : List String) :
    Site.carried (uses.map site) names = List.zipWith (fun u name => (name, u.2)) uses names := by
  induction uses generalizing names with
  | nil => rfl
  | cons u uses ih =>
    cases names with
    | nil => rfl
    | cons name names =>
      rw [List.map_cons, Site.carried_cons, ih, List.zipWith_cons_cons]
      rfl

end Use

namespace Binder

/-- A number of a key whose name is not claimed. -/
def Free (claimed : List String) (key : String) (n : Nat) : Prop :=
  0 < n ∧ numbered key n ∉ claimed

theorem infinite_free (claimed : List String) (key : String) :
    (Set.ofPred (Free claimed key)).Infinite := by
  have hfinite : ({0} ∪ Set.preimage (numbered key) {name | name ∈ claimed}).Finite := by
    refine (Set.finite_singleton 0).union (Set.Finite.preimage ?_ (List.finite_toSet claimed))
    exact (numbered_injective key).injOn
  refine (Set.infinite_univ.sdiff hfinite).mono fun n hn => ?_
  have hout := hn.2
  simp only [Set.mem_union, Set.mem_singleton_iff, Set.mem_preimage, not_or] at hout
  exact ⟨Nat.pos_of_ne_zero hout.1, hout.2⟩

theorem nth_free_nil (key : String) (i : Nat) : Nat.nth (Free [] key) i = i + 1 := by
  have hfree : Free [] key = fun n => 0 < n := by
    funext n
    simp [Free]
  have hcount : Nat.count (fun n => 0 < n) (i + 1) = i := by
    induction i with
    | zero => rfl
    | succ i ih => rw [Nat.count_succ, ih, if_pos (Nat.succ_pos i)]
  rw [hfree]
  conv_lhs => rw [← hcount]
  exact Nat.nth_count (Nat.succ_pos i)

/-- The taken names of every key are the claimed ones and those of its first free numbers. -/
def UsedUpTo (claimed : List String) (count : String → Nat) (taken : List String) : Prop :=
  ∀ key n, 0 < n → (numbered key n ∈ taken ↔
    numbered key n ∈ claimed ∨ ∃ i < count key, n = Nat.nth (Free claimed key) i)

theorem eq_nth_of_isLeast (claimed taken : List String) (count : String → Nat) (key : String)
    (n : Nat) (hused : UsedUpTo claimed count taken)
    (h : IsLeast {n | 0 < n ∧ numbered key n ∉ taken} n) :
    n = Nat.nth (Free claimed key) (count key) := by
  have hinf := infinite_free claimed key
  refine h.unique ⟨?_, fun m hm => ?_⟩
  -- The next free number makes a new name, since no earlier use has got it.
  · obtain ⟨hpos, hnot⟩ := Nat.nth_mem_of_infinite hinf (count key)
    refine ⟨hpos, fun hmem => ?_⟩
    rcases (hused key _ hpos).mp hmem with hclaimed | ⟨i, hi, he⟩
    · exact hnot hclaimed
    · exact absurd (Nat.nth_injective hinf he) (by omega)
  -- A smaller number that makes one would be free, so an earlier use has got it.
  · have hfree : Free claimed key m :=
      ⟨hm.1, fun hclaimed => hm.2 ((hused key m hm.1).mpr (Or.inl hclaimed))⟩
    obtain ⟨j, _, hj⟩ := Nat.exists_lt_card_nth_eq hfree
    by_contra hlt
    have hjlt : j < count key := by
      by_contra hle
      have hmono := Nat.nth_monotone hinf (Nat.le_of_not_lt hle)
      omega
    exact hm.2 ((hused key m hm.1).mpr (Or.inr ⟨j, hjlt, hj.symm⟩))

theorem usedUpTo_self (claimed taken : List String) (h : ∀ name, name ∈ taken ↔ name ∈ claimed) :
    UsedUpTo claimed (fun _ => 0) taken := by
  intro key n _
  simp [h]

theorem usedUpTo_cons (claimed taken : List String) (count : String → Nat) (key : String)
    (hused : UsedUpTo claimed count taken) :
    UsedUpTo claimed (fun other => count other + if key = other then 1 else 0)
      (numbered key (Nat.nth (Free claimed key) (count key)) :: taken) := by
  intro other n hn
  by_cases hk : key = other
  · subst hk
    simp only [List.mem_cons, hused key n hn, ite_true]
    constructor
    · rintro (he | hclaimed | ⟨i, hi, he⟩)
      · exact Or.inr ⟨count key, Nat.lt_succ_self _, numbered_injective key he⟩
      · exact Or.inl hclaimed
      · exact Or.inr ⟨i, by omega, he⟩
    · rintro (hclaimed | ⟨i, hi, he⟩)
      · exact Or.inr (Or.inl hclaimed)
      · by_cases hlast : i = count key
        · rw [he, hlast]
          exact Or.inl rfl
        · exact Or.inr (Or.inr ⟨i, by omega, he⟩)
  · have hne : numbered other n ≠ numbered key (Nat.nth (Free claimed key) (count key)) :=
      fun he => hk (numbered_inj _ _ _ _ he).1.symm
    simp only [List.mem_cons, hne, false_or, hk, ite_false, Nat.add_zero]
    exact hused other n hn

/-- Uses of keys get the free numbers of their keys in turn. -/
theorem named_uses (claimed taken : List String) (count : String → Nat) (uses : List Use)
    (names : List String) (hused : UsedUpTo claimed count taken)
    (h : Site.Named taken (uses.map Use.site) names) (i : Nat) (key : String) (v : Scalar)
    (hi : uses[i]? = some (key, v)) :
    names[i]? = some (numbered key
      (Nat.nth (Free claimed key) (count key + Use.before uses key i))) := by
  induction uses generalizing taken count names i with
  | nil => simp at hi
  | cons u uses ih =>
    cases h with
    | cons hs hrest =>
      obtain ⟨n, hname, hleast⟩ := hs
      have hn := eq_nth_of_isLeast claimed taken count u.1 n hused hleast
      cases i with
      | zero =>
        simp only [List.getElem?_cons_zero, Option.some.injEq] at hi
        rw [List.getElem?_cons_zero, hname, hn, hi]
        rfl
      | succ i =>
        rw [List.getElem?_cons_succ] at hi ⊢
        rw [hname, hn] at hrest
        rw [ih _ _ _ (usedUpTo_cons claimed taken count u.1 hused) hrest i hi, Use.before_cons]
        congr 3
        omega

end Binder

end BoundSql
