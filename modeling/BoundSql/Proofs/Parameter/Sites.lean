import Mathlib.Order.Bounds.Defs
import BoundSql.Proofs.Parameter.Entries
import BoundSql.Proofs.Parameter.Numbering

/-!
# Sites and their names

A site is a place of a statement that is given a name. What a binder does for a list of sites can
be said without its counters: a use of a key takes the least number that makes a new name, a
column takes its own name, which must be new. Hence the names of all sites differ, and the
parameters are the names of the sites that carry a value, with these values.
-/

namespace BoundSql

/-- A place of a statement that is given a name. -/
inductive Site where
  /-- A value bound under a numbered use of a key. -/
  | bind (key : String) (value : Scalar)
  /-- A value bound under the name of a column. -/
  | record (column : String) (value : Scalar)
  /-- The name of a column, its value to come later. -/
  | reserve (column : String)

namespace Site

def value? : Site → Option Scalar
  | bind _ v => some v
  | record _ v => some v
  | reserve _ => none

/-- The form of the names that a site can be given. -/
def Fits : Site → String → Prop
  | bind key _, name => ∃ n, 0 < n ∧ name = Binder.numbered key n
  | record column _, name => name = column
  | reserve column, name => name = column

/-- The name that a site takes when some names are taken already. -/
def Takes (taken : List String) : Site → String → Prop
  | bind key _, name =>
    ∃ n, name = Binder.numbered key n ∧ IsLeast {n | 0 < n ∧ Binder.numbered key n ∉ taken} n
  | record column _, name => name = column ∧ column ∉ taken
  | reserve column, name => name = column ∧ column ∉ taken

theorem Takes.fits (taken : List String) (s : Site) (name : String) (h : s.Takes taken name) :
    s.Fits name := by
  cases s with
  | bind key v =>
    obtain ⟨n, hname, hleast⟩ := h
    exact ⟨n, hleast.1.1, hname⟩
  | record column v => exact h.1
  | reserve column => exact h.1

theorem Takes.not_mem (taken : List String) (s : Site) (name : String)
    (h : s.Takes taken name) : name ∉ taken := by
  cases s with
  | bind key v =>
    obtain ⟨n, hname, hleast⟩ := h
    rw [hname]
    exact hleast.1.2
  | record column v =>
    rw [h.1]
    exact h.2
  | reserve column =>
    rw [h.1]
    exact h.2

/-- Sites and the names that they take one after the other. -/
inductive Named : List String → List Site → List String → Prop
  | nil (taken : List String) : Named taken [] []
  | cons {taken : List String} {s : Site} {name : String} {sites : List Site}
      {names : List String} : s.Takes taken name → Named (name :: taken) sites names →
      Named taken (s :: sites) (name :: names)

theorem Named.fits {taken : List String} {sites : List Site} {names : List String}
    (h : Named taken sites names) : List.Forall₂ Fits sites names := by
  induction h with
  | nil taken => exact List.Forall₂.nil
  | cons hs _ ih => exact List.Forall₂.cons (hs.fits _ _ _) ih

theorem Named.nodup {taken : List String} {sites : List Site} {names : List String}
    (h : Named taken sites names) : names.Nodup ∧ ∀ name ∈ names, name ∉ taken := by
  induction h with
  | nil taken => exact ⟨List.nodup_nil, fun name hname => absurd hname List.not_mem_nil⟩
  | @cons taken s name sites names hs _ ih =>
    obtain ⟨hnodup, hnew⟩ := ih
    refine ⟨List.nodup_cons.mpr ⟨fun hmem => ?_, hnodup⟩, fun other hother => ?_⟩
    · exact hnew name hmem (List.mem_cons_self ..)
    · rcases List.mem_cons.mp hother with he | hmem
      · rw [he]
        exact hs.not_mem _ _ _
      · exact fun ht => hnew other hmem (List.mem_cons_of_mem _ ht)

theorem Named.of_append (first second : List Site) (taken names : List String)
    (h : Named taken (first ++ second) names) :
    ∃ names₁ names₂, names = names₁ ++ names₂ ∧ Named taken first names₁ ∧
      Named (names₁.reverse ++ taken) second names₂ := by
  induction first generalizing taken names with
  | nil => exact ⟨[], names, rfl, .nil taken, h⟩
  | cons s first ih =>
    cases h with
    | cons hs hrest =>
      obtain ⟨names₁, names₂, hnames, h₁, h₂⟩ := ih _ _ hrest
      refine ⟨_ :: names₁, names₂, by rw [hnames, List.cons_append], .cons hs h₁, ?_⟩
      rw [List.reverse_cons, List.append_assoc]
      exact h₂

def entry? (e : Site × String) : Option (String × Scalar) := e.1.value?.map fun v => (e.2, v)

/-- The names of the sites that carry a value, with these values. -/
def carried (sites : List Site) (names : List String) : List (String × Scalar) :=
  (sites.zip names).filterMap entry?

theorem carried_cons (s : Site) (name : String) (sites : List Site) (names : List String) :
    carried (s :: sites) (name :: names) = carried [s] [name] ++ carried sites names := by
  simp only [carried, List.zip_cons_cons, List.zip_nil_left, ← List.filterMap_append,
    List.singleton_append]

theorem carried_append (first second : List Site) (names₁ names₂ : List String)
    (h : first.length = names₁.length) :
    carried (first ++ second) (names₁ ++ names₂)
      = carried first names₁ ++ carried second names₂ := by
  simp only [carried, List.zip_append h, List.filterMap_append]

def reserved? : Site → Option String
  | reserve column => some column
  | _ => none

theorem mem_of_reserved (sites : List Site) (names : List String)
    (hfits : List.Forall₂ Fits sites names) (column : String)
    (h : column ∈ sites.filterMap reserved?) : column ∈ names := by
  induction hfits with
  | nil => exact absurd h List.not_mem_nil
  | @cons s name sites names hs hfits ih =>
    cases s with
    | bind key v => exact List.mem_cons_of_mem _ (ih h)
    | record column' v => exact List.mem_cons_of_mem _ (ih h)
    | reserve column' =>
      obtain rfl := hs
      rcases List.mem_cons.mp h with he | hmem
      · exact he ▸ List.mem_cons_self ..
      · exact List.mem_cons_of_mem _ (ih hmem)

/-- The names that stand for a value are those that are not reserved. -/
theorem keys_carried (sites : List Site) (names : List String)
    (hfits : List.Forall₂ Fits sites names) (hnodup : names.Nodup) :
    (carried sites names).map (·.1)
      = names.filter fun name => name ∉ sites.filterMap reserved? := by
  induction hfits with
  | nil => rfl
  | @cons s name sites names hs hfits ih =>
    obtain ⟨hname, hnodup⟩ := List.nodup_cons.mp hnodup
    have hnew : name ∉ sites.filterMap reserved? :=
      fun hmem => hname (mem_of_reserved sites names hfits name hmem)
    rw [carried_cons, List.map_append, ih hnodup]
    cases s with
    | bind key v =>
      rw [List.filterMap_cons_none rfl, List.filter_cons_of_pos (by simpa using hnew)]
      rfl
    | record column v =>
      rw [List.filterMap_cons_none rfl, List.filter_cons_of_pos (by simpa using hnew)]
      rfl
    | reserve column =>
      obtain rfl := hs
      have hfirst : (reserve name :: sites).filterMap reserved?
          = name :: sites.filterMap reserved? := rfl
      -- The other names differ from the reserved one.
      rw [hfirst, List.filter_cons_of_neg (by simp)]
      refine List.filter_congr fun other hother => ?_
      have hne : other ≠ name := fun he => hname (he ▸ hother)
      simp [hne]

end Site

namespace Binder

/-! ### One site -/

/-- The name that a site is given, and the binder after it. -/
def nameSite (b : Binder) : Site → Except Error (String × Binder)
  | .bind key v => .ok (b.bind key v)
  | .record column v => (b.record column v).map fun b => (column, b)
  | .reserve column => (b.reserve column).map fun b => (column, b)

/-- What holds of every binder that has only been used to name sites. -/
structure Good (b : Binder) : Prop where
  /-- Every number up to the counter of a key is used. -/
  counted : ∀ key n, 0 < n → n ≤ b.counter key → numbered key n ∈ b.taken
  /-- Every parameter has a name that is taken. -/
  covered : ∀ name ∈ b.params.keys, name ∈ b.taken

theorem empty_good : Good {} where
  counted key n hn hle := absurd hle (by simp [counter]; omega)
  covered name hname := absurd hname List.not_mem_nil

theorem nextNumber_isLeast (b : Binder) (key : String) (hb : b.Good) :
    IsLeast {n | 0 < n ∧ numbered key n ∉ b.taken} (b.nextNumber key) := by
  obtain ⟨hlt, hbelow, hfree⟩ := nextNumber_spec b key
  refine ⟨⟨by omega, hfree⟩, fun n hn => ?_⟩
  by_contra hlt'
  by_cases hcount : n ≤ b.counter key
  · exact hn.2 (hb.counted key n hn.1 hcount)
  · exact hn.2 (hbelow n (by omega) (by omega))

theorem good_of_claimed (b : Binder) (name : String) (p : Params) (hb : b.Good)
    (hp : ∀ key ∈ p.keys, key ∈ name :: b.taken) : Good ⟨b.counters, name :: b.taken, p⟩ where
  counted key n hn hle := List.mem_cons_of_mem _ (hb.counted key n hn hle)
  covered := hp

theorem insert_of_good (b : Binder) (name : String) (v : Scalar) (hb : b.Good)
    (hn : name ∉ b.taken) : (b.params.insert name v).entries = b.params.entries ++ [(name, v)] :=
  Params.put_of_not_mem _ _ _ fun hmem => hn (hb.covered name hmem)

theorem insert_covered (b : Binder) (name : String) (v : Scalar) (hb : b.Good)
    (hn : name ∉ b.taken) : ∀ key ∈ (b.params.insert name v).keys, key ∈ name :: b.taken := by
  intro key hkey
  rw [Params.keys, insert_of_good b name v hb hn, List.map_append, List.mem_append] at hkey
  rcases hkey with hold | hnew
  · exact List.mem_cons_of_mem _ (hb.covered key hold)
  · rw [List.mem_singleton.mp hnew]
    exact List.mem_cons_self ..

theorem bind_good (b : Binder) (key : String) (v : Scalar) (hb : b.Good) :
    (b.bind key v).2.Good := by
  obtain ⟨hlt, hbelow, hfree⟩ := nextNumber_spec b key
  refine ⟨fun key' n hn hle => ?_, insert_covered b _ v hb hfree⟩
  -- Only the counter of `key` moves, to the number that is taken now; the numbers it passes over
  -- were taken before.
  simp only [bind, counter_setCounter] at hle ⊢
  by_cases hk : key = key'
  · simp only [hk, ite_true] at hle ⊢
    by_cases hnext : n = b.nextNumber key'
    · rw [hnext]
      exact List.mem_cons_self ..
    · refine List.mem_cons_of_mem _ ?_
      by_cases hcount : n ≤ b.counter key'
      · exact hb.counted key' n hn hcount
      · rw [hk] at hbelow
        exact hbelow n (by omega) (by omega)
  · simp only [hk, ite_false] at hle
    exact List.mem_cons_of_mem _ (hb.counted key' n hn hle)

theorem reserve_ok (b b' : Binder) (name : String) (h : b.reserve name = .ok b') :
    name ∉ b.taken ∧ b' = ⟨b.counters, name :: b.taken, b.params⟩ := by
  by_cases hn : name ∈ b.taken
  · simp [reserve, hn] at h
  · simp only [reserve, hn, ite_false, Except.ok.injEq] at h
    exact ⟨hn, h.symm⟩

theorem record_ok (b b' : Binder) (name : String) (v : Scalar) (h : b.record name v = .ok b') :
    name ∉ b.taken ∧ b' = ⟨b.counters, name :: b.taken, b.params.insert name v⟩ := by
  unfold record at h
  cases hr : b.reserve name with
  | error e => simp [hr, Except.map] at h
  | ok b₁ =>
    obtain ⟨hn, hb₁⟩ := reserve_ok b b₁ name hr
    simp only [hr, Except.map, Except.ok.injEq] at h
    exact ⟨hn, by rw [← h, hb₁]⟩

theorem nameSite_ok (b b' : Binder) (s : Site) (name : String) (hb : b.Good)
    (h : b.nameSite s = .ok (name, b')) :
    s.Takes b.taken name ∧ b'.taken = name :: b.taken ∧
      b'.params.entries = b.params.entries ++ Site.carried [s] [name] ∧ b'.Good := by
  cases s with
  | bind key v =>
    simp only [nameSite, Except.ok.injEq] at h
    have hname : numbered key (b.nextNumber key) = name := congrArg Prod.fst h
    have hbinder : (b.bind key v).2 = b' := congrArg Prod.snd h
    have hleast := nextNumber_isLeast b key hb
    refine ⟨⟨_, hname.symm, hleast⟩, ?_, ?_, ?_⟩
    · rw [← hbinder, ← hname]
      rfl
    · rw [← hbinder, ← hname]
      exact insert_of_good b _ v hb hleast.1.2
    · rw [← hbinder]
      exact bind_good b key v hb
  | record column v =>
    unfold nameSite at h
    cases hr : b.record column v with
    | error e => simp [hr, Except.map] at h
    | ok b₁ =>
      obtain ⟨hn, hb₁⟩ := record_ok b b₁ column v hr
      simp only [hr, Except.map, Except.ok.injEq, Prod.mk.injEq] at h
      obtain ⟨rfl, rfl⟩ := h
      rw [hb₁]
      exact ⟨⟨rfl, hn⟩, rfl, insert_of_good b column v hb hn,
        good_of_claimed b column _ hb (insert_covered b column v hb hn)⟩
  | reserve column =>
    unfold nameSite at h
    cases hr : b.reserve column with
    | error e => simp [hr, Except.map] at h
    | ok b₁ =>
      obtain ⟨hn, hb₁⟩ := reserve_ok b b₁ column hr
      simp only [hr, Except.map, Except.ok.injEq, Prod.mk.injEq] at h
      obtain ⟨rfl, rfl⟩ := h
      rw [hb₁]
      refine ⟨⟨rfl, hn⟩, rfl, (List.append_nil _).symm, good_of_claimed b column _ hb ?_⟩
      exact fun key hkey => List.mem_cons_of_mem _ (hb.covered key hkey)

/-! ### All sites -/

/-- The names that sites are given one after the other, and the binder after them. -/
def nameSites (b : Binder) : List Site → Except Error (List String × Binder)
  | [] => .ok ([], b)
  | s :: sites =>
    match b.nameSite s with
    | .error cause => .error cause
    | .ok (name, b) =>
      match nameSites b sites with
      | .error cause => .error cause
      | .ok (names, b) => .ok (name :: names, b)

theorem nameSites_cons_ok (b b' : Binder) (s : Site) (sites : List Site) (names : List String)
    (h : b.nameSites (s :: sites) = .ok (names, b')) :
    ∃ name rest b₁, b.nameSite s = .ok (name, b₁) ∧ b₁.nameSites sites = .ok (rest, b') ∧
      names = name :: rest := by
  unfold nameSites at h
  cases hs : b.nameSite s with
  | error e => simp [hs] at h
  | ok r =>
    cases hr : r.2.nameSites sites with
    | error e => simp [hs, hr] at h
    | ok r' =>
      simp only [hs, hr, Except.ok.injEq, Prod.mk.injEq] at h
      obtain ⟨rfl, rfl⟩ := h
      exact ⟨r.1, r'.1, r.2, rfl, hr, rfl⟩

theorem nameSites_ok (b b' : Binder) (sites : List Site) (names : List String) (hb : b.Good)
    (h : b.nameSites sites = .ok (names, b')) :
    Site.Named b.taken sites names ∧
      b'.params.entries = b.params.entries ++ Site.carried sites names ∧ b'.Good := by
  -- `Good` is what carries over from one site to the next.
  induction sites generalizing b names with
  | nil =>
    simp only [nameSites, Except.ok.injEq, Prod.mk.injEq] at h
    obtain ⟨rfl, rfl⟩ := h
    exact ⟨.nil _, (List.append_nil _).symm, hb⟩
  | cons s sites ih =>
    obtain ⟨name, rest, b₁, hs, hr, hnames⟩ := nameSites_cons_ok b b' s sites names h
    obtain ⟨htakes, htaken, hentries, hgood⟩ := nameSite_ok b b₁ s name hb hs
    obtain ⟨hnamed, hentries', hgood'⟩ := ih b₁ rest hgood hr
    rw [htaken] at hnamed
    refine ⟨hnames ▸ .cons htakes hnamed, ?_, hgood'⟩
    rw [hentries', hentries, hnames, Site.carried_cons s name sites rest, List.append_assoc]

theorem taken_nameSites (b b' : Binder) (sites : List Site) (names : List String) (hb : b.Good)
    (h : b.nameSites sites = .ok (names, b')) : b'.taken = names.reverse ++ b.taken := by
  induction sites generalizing b names with
  | nil =>
    simp only [nameSites, Except.ok.injEq, Prod.mk.injEq] at h
    obtain ⟨rfl, rfl⟩ := h
    rfl
  | cons s sites ih =>
    obtain ⟨name, rest, b₁, hs, hr, hnames⟩ := nameSites_cons_ok b b' s sites names h
    obtain ⟨_, htaken, _, hgood⟩ := nameSite_ok b b₁ s name hb hs
    rw [ih b₁ rest hgood hr, htaken, hnames, List.reverse_cons, List.append_assoc]
    rfl

end Binder

end BoundSql
