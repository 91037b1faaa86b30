import Mathlib.Data.List.Induction
import Mathlib.Data.List.Basic
import BoundSql.Parameter.Params

/-!
# Entries in order

Parameters are made by insertions one after the other. Main statement: whatever was inserted, each
name has one entry, at the place of its first insertion and with the value of its last one, and a
further insertion moves no entry and changes no value but that of its own name.
-/

namespace BoundSql.Params

/-! ### One insertion -/

theorem map_fst_put (entries : List (String × Scalar)) (key : String) (v : Scalar) :
    (put entries key v).map (·.1)
      = if key ∈ entries.map (·.1) then entries.map (·.1) else entries.map (·.1) ++ [key] := by
  induction entries with
  | nil => rfl
  | cons e rest ih =>
    by_cases hk : e.1 = key
    · simp [put, hk]
    · have hput : put (e :: rest) key v = e :: put rest key v := if_neg hk
      have hmem : key ∈ (e :: rest).map (·.1) ↔ key ∈ rest.map (·.1) :=
        List.mem_cons.trans (or_iff_right (Ne.symm hk))
      rw [hput, List.map_cons, ih]
      by_cases hrest : key ∈ rest.map (·.1)
      · rw [if_pos hrest, if_pos (hmem.mpr hrest), List.map_cons]
      · rw [if_neg hrest, if_neg (mt hmem.mp hrest), List.map_cons, List.cons_append]

theorem put_of_not_mem (entries : List (String × Scalar)) (key : String) (v : Scalar)
    (h : key ∉ entries.map (·.1)) : put entries key v = entries ++ [(key, v)] := by
  induction entries with
  | nil => rfl
  | cons e rest ih =>
    simp only [List.map_cons, List.mem_cons, not_or] at h
    simp only [put, Ne.symm h.1, ite_false, ih h.2, List.cons_append]

theorem keys_insert (p : Params) (key : String) (v : Scalar) :
    (p.insert key v).keys = if key ∈ p.keys then p.keys else p.keys ++ [key] :=
  map_fst_put p.entries key v

theorem find?_put (entries : List (String × Scalar)) (key other : String) (v : Scalar) :
    ((put entries key v).find? fun e => decide (e.1 = other)).map (·.2)
      = if key = other then some v
        else (entries.find? fun e => decide (e.1 = other)).map (·.2) := by
  induction entries with
  | nil => by_cases hother : key = other <;> simp [put, hother]
  | cons e rest ih =>
    obtain ⟨k, w⟩ := e
    rw [put]
    by_cases hk : k = key
    · subst hk
      by_cases hother : k = other <;> simp [hother]
    · rw [if_neg hk, List.find?_cons, List.find?_cons]
      by_cases hfirst : k = other
      · subst hfirst
        simp [Ne.symm hk]
      · simpa [hfirst] using ih

theorem get?_insert (p : Params) (key other : String) (v : Scalar) :
    (p.insert key v).get? other = if key = other then some v else p.get? other :=
  find?_put p.entries key other v

/-- An entry stays where it is, and its value too unless it is that of the name. -/
theorem getElem?_put (entries : List (String × Scalar)) (key : String) (v : Scalar) (i : Nat)
    (e : String × Scalar) (h : entries[i]? = some e) :
    ∃ w, (put entries key v)[i]? = some (e.1, w) ∧ (e.1 ≠ key → w = e.2) := by
  induction entries generalizing i with
  | nil => cases h
  | cons d rest ih =>
    obtain ⟨k, u⟩ := d
    rw [put]
    cases i with
    | zero =>
      obtain rfl := Option.some.inj h
      by_cases hk : k = key
      · exact ⟨v, by simp [hk], fun hne => absurd hk hne⟩
      · exact ⟨u, by simp [hk], fun _ => rfl⟩
    | succ i =>
      rw [List.getElem?_cons_succ] at h
      by_cases hk : k = key
      · exact ⟨e.2, by simp [hk, h], fun _ => rfl⟩
      · obtain ⟨w, hw, hkept⟩ := ih i h
        exact ⟨w, by simp [hk, hw], hkept⟩

theorem get?_eq_none_iff (p : Params) (key : String) : p.get? key = none ↔ key ∉ p.keys := by
  rw [get?, Option.map_eq_none_iff, List.find?_eq_none, keys, List.mem_map]
  simp only [decide_eq_true_eq, not_exists, not_and]

/-- Where no name has two entries, each entry is the one that is found. -/
theorem get?_of_mem (p : Params) (h : p.keys.Nodup) (e : String × Scalar) (he : e ∈ p.entries) :
    p.get? e.1 = some e.2 := by
  obtain ⟨before, after, hsplit⟩ := List.append_of_mem he
  rw [keys, hsplit, List.map_append, List.map_cons, List.nodup_append] at h
  have hbefore : ∀ d ∈ before, ¬d.1 = e.1 := fun d hd =>
    h.2.2 d.1 (List.mem_map_of_mem hd) e.1 List.mem_cons_self
  have hnone : (before.find? fun d => decide (d.1 = e.1)) = none :=
    List.find?_eq_none.mpr fun d hd => by simpa using hbefore d hd
  rw [get?, hsplit, List.find?_append, hnone, List.find?_cons_of_pos (by simp)]
  rfl

theorem contains_iff (p : Params) (key : String) : p.contains key = true ↔ key ∈ p.keys := by
  rw [contains, Option.isSome_iff_ne_none, ne_eq, get?_eq_none_iff, not_not]

/-! ### Insertions in turn -/

/-- The value of the last insertion under a name. -/
def lastValue? (calls : List (String × Scalar)) (key : String) : Option Scalar :=
  (calls.reverse.find? fun e => decide (e.1 = key)).map (·.2)

theorem lastValue?_concat (calls : List (String × Scalar)) (key other : String) (v : Scalar) :
    lastValue? (calls ++ [(key, v)]) other
      = if key = other then some v else lastValue? calls other := by
  rw [lastValue?, List.reverse_concat, List.find?_cons]
  by_cases h : key = other <;> simp [h, lastValue?]

theorem lastValue?_eq_some (calls : List (String × Scalar)) (key : String) (v : Scalar) :
    lastValue? calls key = some v ↔
      ∃ before after, calls = before ++ (key, v) :: after ∧ ∀ e ∈ after, e.1 ≠ key := by
  rw [lastValue?, Option.map_eq_some_iff]
  constructor
  · rintro ⟨e, he, rfl⟩
    obtain ⟨hkey, after, before, hcalls, hafter⟩ := List.find?_eq_some_iff_append.mp he
    obtain rfl := of_decide_eq_true hkey
    refine ⟨before.reverse, after.reverse, ?_, fun d hd => ?_⟩
    · rw [← calls.reverse_reverse, hcalls]
      simp
    · simpa using hafter d (List.mem_reverse.mp hd)
  · rintro ⟨before, after, rfl, hafter⟩
    refine ⟨(key, v), List.find?_eq_some_iff_append.mpr ⟨decide_eq_true rfl, after.reverse,
      before.reverse, by simp, fun d hd => ?_⟩, rfl⟩
    simpa using hafter d (List.mem_reverse.mp hd)

/-- What the insertions so far say of the parameters. -/
structure Follows (calls : List (String × Scalar)) (p : Params) : Prop where
  /-- The names stand in the order of their first insertions. -/
  ordered : p.keys.Pairwise fun k k' =>
    (calls.map (·.1)).idxOf k < (calls.map (·.1)).idxOf k'
  inserted : ∀ key, key ∈ p.keys ↔ key ∈ calls.map (·.1)
  last : ∀ key, p.get? key = lastValue? calls key

theorem follows_empty : Follows [] empty where
  ordered := .nil
  inserted _ := Iff.rfl
  last _ := rfl

theorem Follows.insert {calls : List (String × Scalar)} {p : Params} (h : Follows calls p)
    (key : String) (v : Scalar) : Follows (calls ++ [(key, v)]) (p.insert key v) := by
  have hnames : (calls ++ [(key, v)]).map (·.1) = calls.map (·.1) ++ [key] := List.map_append
  -- The first insertion of a name that is known is before the new one.
  have hfirst : ∀ k ∈ p.keys, (calls.map (·.1) ++ [key]).idxOf k = (calls.map (·.1)).idxOf k :=
    fun k hk => List.idxOf_append_of_mem ((h.inserted k).mp hk)
  have hold : p.keys.Pairwise fun k k' =>
      (calls.map (·.1) ++ [key]).idxOf k < (calls.map (·.1) ++ [key]).idxOf k' := by
    refine h.ordered.imp_of_mem fun {k k'} hk hk' hlt => ?_
    rwa [hfirst k hk, hfirst k' hk']
  refine ⟨?_, fun other => ?_, fun other => ?_⟩
  · rw [hnames, keys_insert]
    by_cases hkey : key ∈ p.keys
    · rwa [if_pos hkey]
    · rw [if_neg hkey]
      refine List.pairwise_append.mpr ⟨hold, List.pairwise_singleton _ _, fun k hk k' hk' => ?_⟩
      obtain rfl := List.mem_singleton.mp hk'
      have hnew : k' ∉ calls.map (·.1) := mt (h.inserted k').mpr hkey
      rw [hfirst k hk, List.idxOf_append_of_notMem hnew]
      exact Nat.lt_add_right _ (List.idxOf_lt_length_of_mem ((h.inserted k).mp hk))
  · rw [hnames, keys_insert, List.mem_append, List.mem_singleton, ← h.inserted other]
    by_cases hkey : key ∈ p.keys
    · rw [if_pos hkey]
      exact ⟨Or.inl, fun hmem => hmem.elim id fun he => he ▸ hkey⟩
    · rw [if_neg hkey, List.mem_append, List.mem_singleton]
  · rw [get?_insert, lastValue?_concat, h.last]

/-- No two names are inserted first at one place. -/
theorem Follows.nodup {calls : List (String × Scalar)} {p : Params} (h : Follows calls p) :
    p.keys.Nodup :=
  h.ordered.imp fun hlt he => absurd (he ▸ hlt) (Nat.lt_irrefl _)

theorem ofList_append (pairs calls : List (String × Scalar)) :
    ofList (pairs ++ calls) = calls.foldl (fun p e => p.insert e.1 e.2) (ofList pairs) :=
  List.foldl_append

theorem follows_ofList (calls : List (String × Scalar)) : Follows calls (ofList calls) := by
  induction calls using List.reverseRecOn with
  | nil => exact follows_empty
  | append_singleton calls e ih =>
    rw [ofList_append]
    exact ih.insert e.1 e.2

theorem nodup_keys_ofList (calls : List (String × Scalar)) : (ofList calls).keys.Nodup :=
  (follows_ofList calls).nodup

/--
After any insertions, be they made one by one or at once: the names are distinct and stand in the
order of their first insertions; a name that was inserted has the value of its last insertion, and
any other name none, which is also what the entries show. A further insertion leaves each entry where
it is and each value but that of its own name.
-/
theorem ofList_keeps_insertions (pairs calls : List (String × Scalar)) :
    let names := (pairs ++ calls).map (·.1)
    let p := calls.foldl (fun p e => p.insert e.1 e.2) (ofList pairs)
    p = ofList (pairs ++ calls) ∧
      p.keys.Nodup ∧ p.keys.Pairwise (fun k k' => names.idxOf k < names.idxOf k') ∧
      (∀ key, key ∈ p.keys ↔ key ∈ names) ∧
      (∀ key v, p.get? key = some v ↔ ∃ before after,
        pairs ++ calls = before ++ (key, v) :: after ∧ ∀ e ∈ after, e.1 ≠ key) ∧
      (∀ key, p.get? key = none ↔ key ∉ names) ∧
      (∀ key, p.contains key = true ↔ key ∈ p.keys) ∧ p.size = p.keys.length ∧
      (∀ e ∈ p.entries, p.get? e.1 = some e.2) ∧
      ∀ key v, (p.insert key v).get? key = some v ∧
        (∀ other, other ≠ key → (p.insert key v).get? other = p.get? other) ∧
        ∀ (i : Nat) (e : String × Scalar), p.entries[i]? = some e →
          ∃ w, (p.insert key v).entries[i]? = some (e.1, w) ∧ (e.1 ≠ key → w = e.2) := by
  intro names p
  have hp : p = ofList (pairs ++ calls) := (ofList_append pairs calls).symm
  have hfollows : Follows (pairs ++ calls) p := hp ▸ follows_ofList _
  have hnodup : p.keys.Nodup := hfollows.nodup
  refine ⟨hp, hnodup, hfollows.ordered, hfollows.inserted, fun key v => ?_, fun key => ?_,
    p.contains_iff, ?_, ?_, fun key v => ⟨?_, fun other hother => ?_, getElem?_put p.entries key v⟩⟩
  · rw [hfollows.last, lastValue?_eq_some]
  · rw [get?_eq_none_iff, hfollows.inserted]
  · exact (List.length_map _).symm
  · exact fun e he => get?_of_mem p hnodup e he
  · rw [get?_insert, if_pos rfl]
  · rw [get?_insert, if_neg (Ne.symm hother)]

/-- A name that is set again keeps its place, and its last value. -/
theorem ofList_keeps_insertions_score :
    let p := (ofList [("score", .int 7), ("name", .text "Jo")]).insert "score" .null
    p.entries = [("score", .null), ("name", .text "Jo")] ∧ p.keys.Nodup ∧
      (∃ w, (p.insert "name" (.int 5)).entries[0]? = some ("score", w) ∧ w = .null) ∧
      (p.insert "name" (.int 5)).get? "score" = p.get? "score" ∧ p.get? "level" = none := by
  intro p
  obtain ⟨_, hnodup, _, _, _, hnone, _, _, _, hinsert⟩ :=
    ofList_keeps_insertions [("score", .int 7), ("name", .text "Jo")] [("score", .null)]
  obtain ⟨_, hother, hplace⟩ := hinsert "name" (.int 5)
  have hentries : p.entries = [("score", .null), ("name", .text "Jo")] := by decide
  obtain ⟨w, hw, hkept⟩ := hplace 0 ("score", .null) rfl
  exact ⟨hentries, hnodup, ⟨w, hw, hkept (by decide)⟩, hother "score" (by decide),
    (hnone "level").mpr (by decide)⟩

end BoundSql.Params
