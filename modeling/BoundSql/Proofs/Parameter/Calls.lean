import Mathlib.Order.Bounds.Basic
import BoundSql.Proofs.Parameter.Sites

/-!
# Histories of a binder

A binder is called any number of times, and some of the calls fail. A call that fails leaves the
binder as it was, so that a history comes to the same as its successful calls alone, which name
their sites in turn. What a history guarantees can therefore be said by the placeholders it has
handed out, without the counters behind them.
-/

namespace BoundSql

def Site.claim? : Site → Option String
  | bind .. => none
  | record column _ => some column
  | reserve column => some column

namespace Binder

/-! ### One call -/

/-- Puts a name among those handed out, and says whether it was not there yet. -/
def enter (b : Binder) (name : String) : Bool × Binder :=
  (decide (name ∉ b.taken), { b with taken := b.taken.insert name })

/--
The answer to a call, and the binder that the call leaves, also when it fails: a name is entered
before it is known to be new.
-/
def call (b : Binder) : Site → Except Error String × Binder
  | .bind key v => (.ok (placeholder (b.bind key v).1), (b.bind key v).2)
  | .record column v =>
    match b.enter column with
    | (true, b) => (.ok (placeholder column), { b with params := b.params.insert column v })
    | (false, b) => (.error (.duplicateParameter column), b)
  | .reserve column =>
    match b.enter column with
    | (true, b) => (.ok (placeholder column), b)
    | (false, b) => (.error (.duplicateParameter column), b)

theorem enter_of_mem (b : Binder) (name : String) (h : name ∈ b.taken) :
    b.enter name = (false, b) := by
  simp [enter, h]

theorem enter_of_not_mem (b : Binder) (name : String) (h : name ∉ b.taken) :
    b.enter name = (true, { b with taken := name :: b.taken }) := by
  simp [enter, h]

/-- A call names its site; one that cannot leaves the binder as it is. -/
theorem call_eq (b : Binder) (s : Site) :
    b.call s = match b.nameSite s with
      | .ok (name, b') => (.ok (placeholder name), b')
      | .error cause => (.error cause, b) := by
  cases s with
  | bind key v => rfl
  | record column v =>
    by_cases h : column ∈ b.taken
    · simp [call, enter_of_mem b column h, nameSite, record, reserve, h, Except.map]
    · simp [call, enter_of_not_mem b column h, nameSite, record, reserve, h, Except.map]
  | reserve column =>
    by_cases h : column ∈ b.taken
    · simp [call, enter_of_mem b column h, nameSite, reserve, h, Except.map]
    · simp [call, enter_of_not_mem b column h, nameSite, reserve, h, Except.map]

theorem call_claim (b : Binder) (s : Site) (name : String) (hs : s.claim? = some name) :
    (b.call s).1
      = if name ∈ b.taken then .error (.duplicateParameter name) else .ok (placeholder name) := by
  by_cases h : name ∈ b.taken
  · have henter := b.enter_of_mem name h
    cases s with
    | bind key v => cases hs
    | record column v =>
      obtain rfl := Option.some.inj hs
      simp only [call, henter, h, ite_true]
    | reserve column =>
      obtain rfl := Option.some.inj hs
      simp only [call, henter, h, ite_true]
  · have henter := b.enter_of_not_mem name h
    cases s with
    | bind key v => cases hs
    | record column v =>
      obtain rfl := Option.some.inj hs
      simp only [call, henter, h, ite_false]
    | reserve column =>
      obtain rfl := Option.some.inj hs
      simp only [call, henter, h, ite_false]

/-! ### Histories -/

def after (b : Binder) (calls : List Site) : Binder := calls.foldl (fun b s => (b.call s).2) b

def answer (b : Binder) (calls : List Site) (s : Site) : Except Error String :=
  ((b.after calls).call s).1

/-- The calls that succeeded, each with the placeholder it was given, in the order of the calls. -/
def granted (b : Binder) : List Site → List (Site × String)
  | [] => []
  | s :: calls =>
    match b.call s with
    | (.ok p, b) => (s, p) :: b.granted calls
    | (.error _, b) => b.granted calls

/-- The placeholders that some calls were given. -/
def handedOut (b : Binder) (calls : List Site) : List String := (b.granted calls).map (·.2)

/-- A history comes to the same as its successful calls alone, which name their sites in turn. -/
theorem nameSites_granted (b : Binder) (calls : List Site) :
    ∃ names, b.nameSites ((b.granted calls).map (·.1)) = .ok (names, b.after calls) ∧
      b.handedOut calls = names.map placeholder := by
  induction calls generalizing b with
  | nil => exact ⟨[], rfl, rfl⟩
  | cons s calls ih =>
    have hcall := b.call_eq s
    cases hs : b.nameSite s with
    | error cause =>
      rw [hs] at hcall
      obtain ⟨names, hnames, hplaceholders⟩ := ih b
      refine ⟨names, ?_, ?_⟩
      · simpa only [granted, after, List.foldl_cons, hcall] using hnames
      · simpa only [handedOut, granted, hcall] using hplaceholders
    | ok r =>
      rw [hs] at hcall
      obtain ⟨names, hnames, hplaceholders⟩ := ih r.2
      refine ⟨r.1 :: names, ?_, ?_⟩
      · simp only [after] at hnames
        simp only [granted, after, List.foldl_cons, hcall, List.map_cons, nameSites, hs, hnames]
      · simp only [handedOut] at hplaceholders
        simp only [handedOut, granted, hcall, List.map_cons, hplaceholders]

/-! ### What is handed out -/

theorem placeholder_injective : Function.Injective placeholder := by
  intro name other h
  simpa [placeholder] using h

theorem good_after (calls : List Site) : (after {} calls).Good := by
  obtain ⟨names, hnames, _⟩ := nameSites_granted {} calls
  exact (nameSites_ok {} _ _ names empty_good hnames).2.2

theorem mem_handedOut (calls : List Site) (name : String) :
    placeholder name ∈ handedOut {} calls ↔ name ∈ (after {} calls).taken := by
  obtain ⟨names, hnames, hplaceholders⟩ := nameSites_granted {} calls
  have htaken := taken_nameSites {} _ _ names empty_good hnames
  rw [hplaceholders, List.mem_map_of_injective placeholder_injective, htaken]
  simp

theorem nodup_handedOut (calls : List Site) : (handedOut {} calls).Nodup := by
  obtain ⟨names, hnames, hplaceholders⟩ := nameSites_granted {} calls
  have hnamed := (nameSites_ok {} _ _ names empty_good hnames).1
  rw [hplaceholders]
  exact hnamed.nodup.1.map placeholder_injective

theorem answer_bind (calls : List Site) (key : String) (v : Scalar) :
    ∃ n, IsLeast {n | 0 < n ∧ placeholder (numbered key n) ∉ handedOut {} calls} n ∧
      answer {} calls (.bind key v) = .ok (placeholder (numbered key n)) := by
  refine ⟨(after {} calls).nextNumber key, ?_, rfl⟩
  simp only [mem_handedOut]
  exact nextNumber_isLeast _ key (good_after calls)

theorem answer_bind_congr (calls others : List Site)
    (h : ∀ p, p ∈ handedOut {} calls ↔ p ∈ handedOut {} others) (key : String) (v w : Scalar) :
    answer {} calls (.bind key v) = answer {} others (.bind key w) := by
  obtain ⟨n, hn, hanswer⟩ := answer_bind calls key v
  obtain ⟨m, hm, hanswer'⟩ := answer_bind others key w
  simp only [h] at hn
  rw [hanswer, hanswer', hn.unique hm]

theorem answer_claim (calls : List Site) (s : Site) (name : String) (hs : s.claim? = some name) :
    answer {} calls s
      = if placeholder name ∈ handedOut {} calls then .error (.duplicateParameter name)
        else .ok (placeholder name) := by
  simp only [mem_handedOut]
  exact call_claim _ s name hs

theorem after_of_error (calls : List Site) (s : Site) (cause : Error)
    (h : answer {} calls s = .error cause) : after {} (calls ++ [s]) = after {} calls := by
  have hstep : after {} (calls ++ [s]) = ((after {} calls).call s).2 := List.foldl_concat ..
  rw [answer] at h
  rw [hstep]
  have hcall := (after {} calls).call_eq s
  cases hs : (after {} calls).nameSite s with
  | error cause' =>
    rw [hs] at hcall
    rw [hcall]
  | ok r =>
    rw [hs] at hcall
    rw [hcall] at h
    cases h

/-! ### Parameters -/

theorem map_carried (sites : List Site) (names : List String) :
    (Site.carried sites names).map (Prod.map placeholder id)
      = ((sites.zip names).map (Prod.map id placeholder)).filterMap Site.entry? := by
  rw [Site.carried, List.map_filterMap, List.filterMap_map]
  congr 1
  funext e
  simp only [Site.entry?, Option.map_map, Function.comp_apply, Prod.map_fst, Prod.map_snd, id_eq]
  rfl

/-- The parameters are the successful calls that carry a value, with these values. -/
theorem entries_after (calls : List Site) :
    (after {} calls).params.entries.map (Prod.map placeholder id)
      = (granted {} calls).filterMap Site.entry? := by
  obtain ⟨names, hnames, hplaceholders⟩ := nameSites_granted {} calls
  have hentries := (nameSites_ok {} _ _ names empty_good hnames).2.1
  have hzip : granted {} calls
      = (((granted {} calls).map (·.1)).zip names).map (Prod.map id placeholder) := by
    rw [← List.zip_map_right, ← hplaceholders]
    exact List.zip_of_prod rfl rfl
  have hcarried := map_carried ((granted {} calls).map (·.1)) names
  rw [← hzip] at hcarried
  rw [hentries]
  exact hcarried

theorem keys_after (calls : List Site) :
    (after {} calls).params.keys.Nodup ∧
      ∀ name p, (.reserve name, p) ∈ granted {} calls → name ∉ (after {} calls).params.keys := by
  obtain ⟨names, hnames, _⟩ := nameSites_granted {} calls
  obtain ⟨hnamed, hentries, _⟩ := nameSites_ok {} _ _ names empty_good hnames
  have hkeys : (after {} calls).params.keys = names.filter fun name =>
      name ∉ ((granted {} calls).map (·.1)).filterMap Site.reserved? := by
    rw [Params.keys, hentries]
    exact Site.keys_carried _ names hnamed.fits hnamed.nodup.1
  rw [hkeys]
  refine ⟨hnamed.nodup.1.filter _, fun name p hmem hkey => ?_⟩
  have hreserved : name ∈ ((granted {} calls).map (·.1)).filterMap Site.reserved? :=
    List.mem_filterMap.mpr ⟨.reserve name, List.mem_map_of_mem hmem, rfl⟩
  simp only [List.mem_filter, decide_eq_true_eq] at hkey
  exact hkey.2 hreserved

/-! ### Any history -/

/--
After any calls on a fresh binder, failing ones included: no two calls were given the same
placeholder; the next use of a key is given that of the least number which no call was given, so
that two histories which handed out the same placeholders answer it alike; the parameters are the
successful calls that carry a value, in turn, under distinct keys, none of them reserved; and a
column is refused just when its placeholder was handed out before, which changes nothing.
-/
theorem calls_hand_out (calls : List Site) :
    (handedOut {} calls).Nodup ∧
      (∀ key v, ∃ n,
        IsLeast {n | 0 < n ∧ placeholder (numbered key n) ∉ handedOut {} calls} n ∧
          answer {} calls (.bind key v) = .ok (placeholder (numbered key n))) ∧
      (∀ others, (∀ p, p ∈ handedOut {} calls ↔ p ∈ handedOut {} others) →
        ∀ key v w, answer {} calls (.bind key v) = answer {} others (.bind key w)) ∧
      (after {} calls).params.entries.map (Prod.map placeholder id)
        = (granted {} calls).filterMap Site.entry? ∧
      (after {} calls).params.keys.Nodup ∧
      (∀ name p, (.reserve name, p) ∈ granted {} calls →
        name ∉ (after {} calls).params.keys) ∧
      (∀ s name, Site.claim? s = some name → answer {} calls s
        = if placeholder name ∈ handedOut {} calls then .error (.duplicateParameter name)
          else .ok (placeholder name)) ∧
      ∀ s cause, answer {} calls s = .error cause → after {} (calls ++ [s]) = after {} calls := by
  obtain ⟨hkeys, hreserved⟩ := keys_after calls
  exact ⟨nodup_handedOut calls, answer_bind calls, answer_bind_congr calls, entries_after calls,
    hkeys, hreserved, answer_claim calls, after_of_error calls⟩

/-- A name that a numbered use has got cannot be reserved, and the number is not given again. -/
example :
    granted {} [.record "score_1" (.int 7), .bind "score" .null, .reserve "score_2",
        .reserve "score", .bind "score" (.int 5)]
      = [(.record "score_1" (.int 7), ":score_1"), (.bind "score" .null, ":score_2"),
        (.reserve "score", ":score"), (.bind "score" (.int 5), ":score_3")] := rfl

end Binder

end BoundSql
