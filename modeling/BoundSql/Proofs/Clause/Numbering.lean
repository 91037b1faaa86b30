import BoundSql.Proofs.Clause.Sites
import BoundSql.Proofs.Parameter.Uses

/-!
# Numbering of bound values

In a clause without INSERT and UPDATE the uses of a key are numbered 1, 2, 3 and so on in the
order in which they are rendered, whatever the other keys are. In the condition of an UPDATE the
numbers whose names are columns that the statement sets are passed over.
-/

namespace BoundSql

def Site.use? : Site → Option Use
  | bind key v => some (key, v)
  | _ => none

/-- The columns whose names a statement claims for the values that it sets. -/
def claimedColumns (t : Table) : Option (List (String × Scalar)) → List String
  | some values => values.map (·.1)
  | none => t.columnNames

namespace Clause

mutual
/-- An INSERT or an UPDATE stands somewhere in the clause. -/
def assigns : Clause → Bool
  | binary l _ r => assigns l || assigns r
  | unary _ c _ => assigns c
  | junction _ cs => anyAssigns cs
  | group c => assigns c
  | sequence cs _ => anyAssigns cs
  | join l r on _ => assigns l || assigns r || assigns on
  | select columns froms condition order _ _ _ =>
    anyAssigns columns || anyAssigns froms
      || (match condition with
          | some c => assigns c
          | none => false)
      || (match order with
          | some ⟨terms, _⟩ => anyAssigns terms
          | none => false)
  | insert .. => true
  | update .. => true
  | delete _ condition =>
    match condition with
    | some c => assigns c
    | none => false
  | _ => false

def anyAssigns : List Clause → Bool
  | [] => false
  | c :: cs => assigns c || anyAssigns cs
end

theorem anyAssigns_eq_any (cs : List Clause) : anyAssigns cs = cs.any assigns := by
  induction cs with
  | nil => rfl
  | cons c cs ih => rw [anyAssigns, ih, List.any_cons]

/-- The uses of keys in a clause, in the order in which they are rendered. -/
def uses (c : Clause) : List Use := c.sites.filterMap Site.use?

theorem select_assigns (columns froms : List Clause) (condition : Option Clause)
    (order : Option (OrderTerms Clause)) (limit offset : Option UInt64) (distinct : Bool) :
    assigns (.select columns froms condition order limit offset distinct)
      = (columns.any assigns || froms.any assigns || condition.any assigns
        || order.any fun o => o.terms.any assigns) := by
  cases condition <;> cases order <;>
    simp only [assigns, anyAssigns_eq_any, Option.any]

/-! ### Clauses without assignments -/

theorem isUse_of_flatMap (cs : List Clause) (hcs : cs.any assigns = false)
    (ih : ∀ c ∈ cs, c.assigns = false → ∀ s ∈ c.sites, s.use?.isSome) :
    ∀ s ∈ cs.flatMap sites, s.use?.isSome := by
  intro s hs
  obtain ⟨c, hc, hsc⟩ := List.mem_flatMap.mp hs
  exact ih c hc (by simpa using List.any_eq_false.mp hcs c hc) s hsc

theorem isUse_of_where (condition : Option Clause) (h : condition.any assigns = false)
    (ih : ∀ c ∈ condition, c.assigns = false → ∀ s ∈ c.sites, s.use?.isSome) :
    ∀ s ∈ whereSites condition, s.use?.isSome := by
  cases condition with
  | none => exact fun s hs => absurd hs List.not_mem_nil
  | some c => exact ih c rfl h

theorem isUse_of_not_assigns (c : Clause) (h : c.assigns = false) :
    ∀ s ∈ c.sites, s.use?.isSome := by
  induction c using Clause.induct with
  | table t => exact fun s hs => absurd hs List.not_mem_nil
  | named name => exact fun s hs => absurd hs List.not_mem_nil
  | aliased a => exact fun s hs => absurd hs List.not_mem_nil
  | column c => exact fun s hs => absurd hs List.not_mem_nil
  | null => exact fun s hs => absurd hs List.not_mem_nil
  | bind key v =>
    intro s hs
    rw [List.mem_singleton.mp hs]
    rfl
  | binary l o r ihl ihr =>
    simp only [assigns, Bool.or_eq_false_iff] at h
    intro s hs
    rcases List.mem_append.mp hs with hs | hs
    · exact ihl h.1 s hs
    · exact ihr h.2 s hs
  | unary o c m ih => exact ih h
  | junction o cs ih =>
    rw [assigns, anyAssigns_eq_any] at h
    rw [sites, sitesOfAll_eq_flatMap]
    exact isUse_of_flatMap cs h ih
  | group c ih => exact ih h
  | sequence cs separator ih =>
    rw [assigns, anyAssigns_eq_any] at h
    rw [sites, sitesOfAll_eq_flatMap]
    exact isUse_of_flatMap cs h ih
  | join l r on outer ihl ihr ihon =>
    simp only [assigns, Bool.or_eq_false_iff] at h
    intro s hs
    simp only [sites, List.mem_append] at hs
    rcases hs with (hs | hs) | hs
    · exact ihl h.1.1 s hs
    · exact ihr h.1.2 s hs
    · exact ihon h.2 s hs
  | select columns froms condition order limit offset distinct ihc ihf ihw iho =>
    simp only [select_assigns, Bool.or_eq_false_iff] at h
    intro s hs
    simp only [sites_select, List.mem_append] at hs
    rcases hs with ((hs | hs) | hs) | hs
    · exact isUse_of_flatMap columns h.1.1.1 ihc s hs
    · exact isUse_of_flatMap froms h.1.1.2 ihf s hs
    · exact isUse_of_where condition h.1.2 ihw s hs
    · cases order with
      | none => exact absurd hs List.not_mem_nil
      | some o => exact isUse_of_flatMap o.terms h.2 (iho o rfl) s hs
  | insert t values => cases h
  | update t values condition ih => cases h
  | delete t condition ih =>
    rw [sites_delete]
    refine isUse_of_where condition ?_ ih
    cases condition with
    | none => rfl
    | some c => exact h

theorem sites_eq_uses (c : Clause) (h : c.assigns = false) : c.sites = c.uses.map Use.site := by
  have hall := isUse_of_not_assigns c h
  unfold uses
  generalize c.sites = sites at hall
  induction sites with
  | nil => rfl
  | cons s sites ih =>
    have hs := hall s (List.mem_cons_self ..)
    have hrest := ih fun s hs => hall s (List.mem_cons_of_mem _ hs)
    cases s with
    | bind key v =>
      have hcons : (Site.bind key v :: sites).filterMap Site.use?
          = (key, v) :: sites.filterMap Site.use? := rfl
      rw [hcons, List.map_cons, ← hrest]
      rfl
    | record column v => cases hs
    | reserve column => cases hs

/-! ### The columns that a statement sets -/

theorem names_of_columns {α : Type} (f : α → Site) (g : α → String) (columns : List α)
    (names : List String) (hf : ∀ a name, (f a).Fits name → name = g a)
    (h : List.Forall₂ Site.Fits (columns.map f) names) : names = columns.map g := by
  induction columns generalizing names with
  | nil =>
    cases h
    rfl
  | cons a columns ih =>
    cases h with
    | cons hfits hrest => rw [hf a _ hfits, ih _ hrest, List.map_cons]

theorem named_columnSites (t : Table) (values : Option (List (String × Scalar)))
    (taken names : List String) (h : Site.Named taken (columnSites t values) names) :
    names = claimedColumns t values := by
  cases values with
  | none =>
    have hnames := names_of_columns Site.reserve id t.columnNames names
      (fun column name hn => hn) h.fits
    rw [hnames, List.map_id]
    rfl
  | some values =>
    exact names_of_columns (fun e : String × Scalar => Site.record e.1 e.2) (·.1) values names
      (fun e name hn => hn) h.fits

theorem carried_columnSites (t : Table) (values : Option (List (String × Scalar))) :
    Site.carried (columnSites t values) (claimedColumns t values) = values.getD [] := by
  cases values with
  | none =>
    simp only [columnSites, claimedColumns, Option.getD_none]
    induction t.columnNames with
    | nil => rfl
    | cons column columns ih => rw [List.map_cons, Site.carried_cons, ih]; rfl
  | some values =>
    simp only [columnSites, claimedColumns, Option.getD_some]
    induction values with
    | nil => rfl
    | cons e values ih => rw [List.map_cons, List.map_cons, Site.carried_cons, ih]; rfl

/-! ### Numbers of the uses -/

theorem keys_of_uses (uses : List Use) (names : List String) (h : uses.length = names.length) :
    (List.zipWith (fun (u : Use) name => (name, u.2)) uses names).map (·.1) = names := by
  induction uses generalizing names with
  | nil => exact (List.eq_nil_of_length_eq_zero h.symm).symm
  | cons u uses ih =>
    cases names with
    | nil => cases h
    | cons name names =>
      rw [List.zipWith_cons_cons, List.map_cons, ih names (Nat.succ_inj.mp h)]

/-- Without INSERT and UPDATE the names are the keys of the parameters, numbered in turn. -/
theorem compile_uses (q : Quoting) (c : Clause) (s : Statement) (hc : c.assigns = false)
    (h : c.compile q = .ok s) :
    s.sql = String.join (Template.written (c.template q) s.params.keys) ∧
      s.params.entries.length = c.uses.length ∧
      ∀ i key v, c.uses[i]? = some (key, v) →
        s.params.entries[i]? = some (Binder.numbered key (Use.before c.uses key i + 1), v) := by
  obtain ⟨_, names, hnamed, hsql, hentries⟩ := compile_named q c s h
  rw [sites_eq_uses c hc] at hnamed hentries
  have hlen : c.uses.length = names.length := by
    rw [← hnamed.fits.length_eq, List.length_map]
  rw [Use.carried_uses] at hentries
  have hkeys : s.params.keys = names := by
    rw [Params.keys, hentries, keys_of_uses _ _ hlen]
  refine ⟨by rw [hkeys, hsql], by rw [hentries, List.length_zipWith, hlen, Nat.min_self], ?_⟩
  intro i key v hi
  have hused := Binder.usedUpTo_self [] [] fun name => Iff.rfl
  have hname := Binder.named_uses [] [] _ c.uses names hused hnamed i key v hi
  rw [Nat.zero_add, Binder.nth_free_nil] at hname
  rw [hentries, List.getElem?_zipWith, hi, hname]

theorem compile_update_uses (q : Quoting) (t : Table) (values : Option (List (String × Scalar)))
    (c : Clause) (s : Statement) (hc : c.assigns = false)
    (h : (Clause.update t values (some c)).compile q = .ok s) :
    ∃ names : List String,
      s.sql = String.join (Template.written ((Clause.update t values (some c)).template q)
        (claimedColumns t values ++ names)) ∧
      s.params.entries
        = values.getD [] ++ List.zipWith (fun u name => (name, u.2)) c.uses names ∧
      names.length = c.uses.length ∧
      ∀ i key v, c.uses[i]? = some (key, v) →
        names[i]? = some (Binder.numbered key
          (Nat.nth (Binder.Free (claimedColumns t values) key) (Use.before c.uses key i))) := by
  obtain ⟨_, names, hnamed, hsql, hentries⟩ := compile_named q _ s h
  rw [sites_update, whereSites, Option.elim, sites_eq_uses c hc] at hnamed hentries
  -- The columns that are set come first, so their names are the ones claimed beforehand.
  obtain ⟨set, names, rfl, hset, hnames⟩ := hnamed.of_append
  have hlen := hset.fits.length_eq
  obtain rfl := named_columnSites t values [] set hset
  rw [Site.carried_append _ _ _ _ hlen, carried_columnSites, Use.carried_uses] at hentries
  refine ⟨names, hsql, hentries, ?_, ?_⟩
  · rw [← hnames.fits.length_eq, List.length_map]
  · intro i key v hi
    have hused := Binder.usedUpTo_self (claimedColumns t values)
      ((claimedColumns t values).reverse ++ []) fun name => by simp
    have hname := Binder.named_uses _ _ _ c.uses names hused hnames i key v hi
    rwa [Nat.zero_add] at hname

/--
The uses of a key are numbered in the order in which they are rendered. Where nothing is set they
get 1, 2, 3 and so on; in the condition of an UPDATE they get the positive numbers, from the least
on, whose names are not columns that the statement sets.
-/
theorem compile_numbers_uses :
    (∀ (q : Quoting) (c : Clause) (s : Statement), c.assigns = false → c.compile q = .ok s →
      s.sql = String.join (Template.written (c.template q) s.params.keys) ∧
      s.params.entries.length = c.uses.length ∧
      ∀ i key v, c.uses[i]? = some (key, v) →
        s.params.entries[i]?
          = some (Binder.numbered key (Use.before c.uses key i + 1), v)) ∧
    (∀ (q : Quoting) (t : Table) (values : Option (List (String × Scalar))) (c : Clause)
        (s : Statement),
      c.assigns = false → (Clause.update t values (some c)).compile q = .ok s →
      ∃ names : List String,
        s.sql = String.join (Template.written ((Clause.update t values (some c)).template q)
          (claimedColumns t values ++ names)) ∧
        s.params.entries
          = values.getD [] ++ List.zipWith (fun u name => (name, u.2)) c.uses names ∧
        names.length = c.uses.length ∧
        ∀ i key v, c.uses[i]? = some (key, v) →
          names[i]? = some (Binder.numbered key
            (Nat.nth (Binder.Free (claimedColumns t values) key)
              (Use.before c.uses key i)))) :=
  ⟨compile_uses, compile_update_uses⟩

/-- Two uses of `a` with one of `a_1` between them. -/
def mixedUses : Clause :=
  .sequence [.bind "a" (.int 1), .bind "a_1" (.int 2), .bind "a" (.int 3)] ", "

/-- Between the uses `a_1` and `a_2` of the key `a` stands the use `a_1_1` of the key `a_1`; and a
column `a_1` that is set moves the uses of `a` up by one. -/
theorem compile_numbers_uses_mixed :
    (mixedUses.assigns = false ∧
      mixedUses.compile .plain = .ok ⟨":a_1, :a_1_1, :a_2",
        ⟨[("a_1", .int 1), ("a_1_1", .int 2), ("a_2", .int 3)]⟩⟩ ∧
      [("a_1", Scalar.int 1), ("a_1_1", .int 2), ("a_2", .int 3)][2]?
        = some (Binder.numbered "a" (Use.before mixedUses.uses "a" 2 + 1), .int 3)) ∧
    ((Clause.update ⟨"t", [⟨"a_1", .integer, {}⟩]⟩ none (some mixedUses)).compile .plain
        = .ok ⟨"UPDATE t SET a_1 = :a_1 WHERE :a_2, :a_1_1, :a_3",
          ⟨[("a_2", .int 1), ("a_1_1", .int 2), ("a_3", .int 3)]⟩⟩ ∧
      ∃ names : List String,
        [("a_2", Scalar.int 1), ("a_1_1", .int 2), ("a_3", .int 3)]
          = [] ++ List.zipWith (fun u name => (name, u.2)) mixedUses.uses names ∧
        names[2]? = some (Binder.numbered "a"
          (Nat.nth (Binder.Free ["a_1"] "a") (Use.before mixedUses.uses "a" 2)))) := by
  have hplain := compile_numbers_uses.1 .plain mixedUses
    ⟨":a_1, :a_1_1, :a_2", ⟨[("a_1", .int 1), ("a_1_1", .int 2), ("a_2", .int 3)]⟩⟩ rfl rfl
  obtain ⟨names, _, hentries, _, hnames⟩ :=
    compile_numbers_uses.2 .plain ⟨"t", [⟨"a_1", .integer, {}⟩]⟩ none mixedUses
      ⟨"UPDATE t SET a_1 = :a_1 WHERE :a_2, :a_1_1, :a_3",
        ⟨[("a_2", .int 1), ("a_1_1", .int 2), ("a_3", .int 3)]⟩⟩ rfl rfl
  exact ⟨⟨rfl, rfl, hplain.2.2 2 "a" (.int 3) rfl⟩,
    ⟨rfl, names, hentries, hnames 2 "a" (.int 3) rfl⟩⟩

end Clause

end BoundSql
