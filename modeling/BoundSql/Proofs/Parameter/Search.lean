import Mathlib.Data.Set.Card
import BoundSql.Proofs.Parameter.Calls

/-!
# The search for a free number

A use of a key counts on from the last number of the key until the name of a number is not taken.
Nothing bounds the count in itself. Main statement: it ends, after at most one more pass than there
are taken names of the key ahead, since each pass that goes on leaves one of them behind; and no
number that it comes to is larger than the number of names handed out.
-/

namespace BoundSql.Binder

/-! ### Passes -/

/-- The numbers that a search comes to, one in each pass, when it starts behind a number. -/
inductive Tries (taken : List String) (key : String) : Nat → List Nat → Prop
  | free {n : Nat} : numbered key (n + 1) ∉ taken → Tries taken key n [n + 1]
  | taken {n : Nat} {ns : List Nat} : numbered key (n + 1) ∈ taken →
      Tries taken key (n + 1) ns → Tries taken key n ((n + 1) :: ns)

/-- The taken names of a key whose numbers are larger than a given one. -/
def ahead (taken : List String) (key : String) (n : Nat) : Set String :=
  {name | name ∈ taken ∧ ∃ m, n < m ∧ name = numbered key m}

theorem finite_ahead (taken : List String) (key : String) (n : Nat) :
    (ahead taken key n).Finite :=
  (List.finite_toSet taken).subset fun _ h => h.1

/-- A pass over a taken name leaves just this name behind. -/
theorem ahead_of_taken (taken : List String) (key : String) (n : Nat)
    (h : numbered key (n + 1) ∈ taken) :
    ahead taken key n = insert (numbered key (n + 1)) (ahead taken key (n + 1)) := by
  ext name
  constructor
  · rintro ⟨hname, m, hm, rfl⟩
    by_cases hnext : m = n + 1
    · exact Or.inl (by rw [hnext])
    · exact Or.inr ⟨hname, m, by omega, rfl⟩
  · rintro (rfl | ⟨hname, m, hm, rfl⟩)
    · exact ⟨h, n + 1, Nat.lt_succ_self n, rfl⟩
    · exact ⟨hname, m, by omega, rfl⟩

theorem ncard_ahead_of_taken (taken : List String) (key : String) (n : Nat)
    (h : numbered key (n + 1) ∈ taken) :
    (ahead taken key n).ncard = (ahead taken key (n + 1)).ncard + 1 := by
  have hnew : numbered key (n + 1) ∉ ahead taken key (n + 1) := by
    rintro ⟨_, m, hm, he⟩
    have hsame : n + 1 = m := numbered_injective key he
    omega
  rw [ahead_of_taken taken key n h,
    Set.ncard_insert_of_notMem hnew (finite_ahead taken key (n + 1))]

/-! ### Searches -/

theorem exists_tries (taken : List String) (key : String) (n : Nat) :
    ∃ ns, Tries taken key n ns ∧ ns.length ≤ (ahead taken key n).ncard + 1 := by
  -- What gets less with each pass is not the number but the names ahead of it.
  induction hk : (ahead taken key n).ncard generalizing n with
  | zero =>
    have hfree : numbered key (n + 1) ∉ taken := fun htaken => by
      rw [ncard_ahead_of_taken taken key n htaken] at hk
      omega
    exact ⟨[n + 1], .free hfree, Nat.le_refl 1⟩
  | succ k ih =>
    by_cases htaken : numbered key (n + 1) ∈ taken
    · have hnext : (ahead taken key (n + 1)).ncard = k := by
        rw [ncard_ahead_of_taken taken key n htaken] at hk
        omega
      obtain ⟨ns, hns, hlength⟩ := ih (n + 1) hnext
      exact ⟨(n + 1) :: ns, .taken htaken hns, Nat.succ_le_succ hlength⟩
    · exact ⟨[n + 1], .free htaken, by simp⟩

theorem tries_unique (taken : List String) (key : String) (n : Nat) (ns ms : List Nat)
    (hns : Tries taken key n ns) (hms : Tries taken key n ms) : ms = ns := by
  induction hns generalizing ms with
  | free hfree =>
    cases hms with
    | free _ => rfl
    | taken htaken _ => exact absurd htaken hfree
  | taken htaken _ ih =>
    cases hms with
    | free hfree => exact absurd htaken hfree
    | taken _ hms => rw [ih _ hms]

/-- The last number that a search comes to is the first one behind its start that is free. -/
theorem last_of_tries (taken : List String) (key : String) (n : Nat) (ns : List Nat)
    (h : Tries taken key n ns) :
    ∃ m, ns.getLast? = some m ∧ (∀ k ∈ ns, k ≤ m) ∧ n < m ∧
      (∀ k, n < k → k < m → numbered key k ∈ taken) ∧ numbered key m ∉ taken := by
  induction h with
  | @free n hfree =>
    refine ⟨n + 1, rfl, fun k hk => ?_, Nat.lt_succ_self n, fun k hk hk' => ?_, hfree⟩
    · rw [List.mem_singleton.mp hk]
    · omega
  | @taken n ns htaken _ ih =>
    obtain ⟨m, hlast, hle, hlt, hbelow, hfree⟩ := ih
    refine ⟨m, ?_, fun k hk => ?_, by omega, fun k hk hk' => ?_, hfree⟩
    · rw [List.getLast?_cons, hlast]
      rfl
    · rcases List.mem_cons.mp hk with rfl | hk
      · omega
      · exact hle k hk
    · by_cases hnext : k = n + 1
      · rwa [hnext]
      · exact hbelow k (by omega) hk'

/-- The number that the next use of a key gets is the one at which the search ends. -/
theorem getLast?_of_tries (b : Binder) (key : String) (ns : List Nat)
    (h : Tries b.taken key (b.counter key) ns) :
    ns.getLast? = some (b.nextNumber key) ∧ ∀ n ∈ ns, n ≤ b.nextNumber key := by
  obtain ⟨m, hlast, hle, hlt, hbelow, hfree⟩ := last_of_tries _ _ _ _ h
  obtain ⟨hlt', hbelow', hfree'⟩ := nextNumber_spec b key
  have hsame : m = b.nextNumber key := by
    by_contra hne
    rcases Nat.lt_or_gt_of_ne hne with hless | hmore
    · exact hfree (hbelow' m hlt hless)
    · exact hfree' (hbelow _ hlt' hmore)
  exact hsame ▸ ⟨hlast, hle⟩

/-! ### Counters -/

theorem counter_le_length (b : Binder) (key : String) (hb : b.Good) :
    b.counter key ≤ b.taken.length :=
  length_le_of_numbered_mem b.taken key 0 (b.counter key) fun m hm hm' =>
    hb.counted key m hm (by omega)

theorem length_handedOut (calls : List Site) :
    (handedOut {} calls).length = (after {} calls).taken.length := by
  obtain ⟨names, hnames, hplaceholders⟩ := nameSites_granted {} calls
  have htaken := taken_nameSites {} _ _ names empty_good hnames
  have hempty : (({} : Binder).taken) = [] := rfl
  rw [hplaceholders, htaken, hempty, List.length_map, List.append_nil, List.length_reverse]

theorem counter_le_handedOut (calls : List Site) (key : String) :
    (after {} calls).counter key ≤ (handedOut {} calls).length := by
  rw [length_handedOut]
  exact counter_le_length _ key (good_after calls)

theorem counter_after_bind (calls : List Site) (key : String) (v : Scalar) :
    (after {} (calls ++ [.bind key v])).counter key = (after {} calls).nextNumber key := by
  have hstep : after {} (calls ++ [.bind key v]) = ((after {} calls).bind key v).2 :=
    List.foldl_concat ..
  rw [hstep, bind, counter_setCounter, if_pos rfl]

/--
After any calls on a fresh binder the search for the number of a use of any key ends, in one way
only, and with at most one more pass than there are taken names of the key with a number above its
counter. The number that it ends with is the one that the use gets and the new counter of the key,
and none that it comes to is larger than the number of names handed out with this one. In the same
way no counter is ever larger than the number of names handed out so far.
-/
theorem search_ends (calls : List Site) :
    (∀ key v, ∃ ns,
      Tries (after {} calls).taken key ((after {} calls).counter key) ns ∧
      (∀ ms, Tries (after {} calls).taken key ((after {} calls).counter key) ms → ms = ns) ∧
      ns.length ≤ (ahead (after {} calls).taken key ((after {} calls).counter key)).ncard + 1 ∧
      (∃ n, ns.getLast? = some n ∧
        answer {} calls (.bind key v) = .ok (placeholder (numbered key n)) ∧
        (after {} (calls ++ [.bind key v])).counter key = n) ∧
      ∀ n ∈ ns, n ≤ (handedOut {} (calls ++ [.bind key v])).length) ∧
    ∀ key, (after {} calls).counter key ≤ (handedOut {} calls).length := by
  refine ⟨fun key v => ?_, counter_le_handedOut calls⟩
  obtain ⟨ns, hns, hlength⟩ := exists_tries (after {} calls).taken key ((after {} calls).counter key)
  obtain ⟨hlast, hle⟩ := getLast?_of_tries _ key ns hns
  have hcounter := counter_after_bind calls key v
  refine ⟨ns, hns, fun ms hms => tries_unique _ _ _ _ _ hns hms, hlength,
    ⟨_, hlast, rfl, hcounter⟩, fun n hn => (hle n hn).trans ?_⟩
  rw [← hcounter]
  exact counter_le_handedOut _ key

/-- A search that passes over a reserved name and ends before another one. -/
theorem search_ends_score :
    let calls := [.bind "score" .null, .reserve "score_2", .record "score_4" (.int 7),
      .reserve "name"]
    let taken := (after {} calls).taken
    (after {} calls).counter "score" = 1 ∧ Tries taken "score" 1 [2, 3] ∧
      (∀ ms, Tries taken "score" 1 ms → ms = [2, 3]) ∧
      [2, 3].length ≤ (ahead taken "score" 1).ncard + 1 ∧
      answer {} calls (.bind "score" (.int 5)) = .ok ":score_3" ∧
      3 ≤ (handedOut {} (calls ++ [.bind "score" (.int 5)])).length ∧
      (after {} calls).counter "name" ≤ (handedOut {} calls).length := by
  intro calls taken
  obtain ⟨hsearch, hcounters⟩ := search_ends calls
  obtain ⟨ns, hns, hunique, hlength, ⟨n, hlast, hanswer, _⟩, hbound⟩ := hsearch "score" (.int 5)
  have htries : Tries taken "score" 1 [2, 3] := .taken (by decide) (.free (by decide))
  obtain rfl : [2, 3] = ns := hunique _ htries
  obtain rfl : 3 = n := Option.some.inj hlast
  exact ⟨rfl, htries, hunique, hlength, hanswer, hbound 3 (by decide), hcounters "name"⟩

end BoundSql.Binder
