import BoundSql.Proofs.Clause.Froms
import BoundSql.Proofs.Clause.Linking

/-!
# Columns in the order of a select list

A column that a select list mentions stands at a place: the number of an item and then, from
expression to expression, the number of the operand or member it is in. Places in lexicographic
order are the columns from left to right. Where a SELECT gives no list to select from, it selects
from the owners of its columns, each where it is mentioned first.
-/

namespace BoundSql

namespace Clause

/-! ### Places of columns -/

/-- What an expression is made of, from left to right. -/
def operands : Clause → List Clause
  | binary l _ r => [l, r]
  | unary _ c _ => [c]
  | group c => [c]
  | junction _ cs => cs
  | sequence cs _ => cs
  | _ => []

/-- The column is in the clause, where the numbers lead from operand to operand. -/
inductive MentionsAt : Clause → List Nat → ColumnRef → Prop
  | here {r : ColumnRef} : MentionsAt (.column r) [] r
  | inside {c d : Clause} {i : Nat} {place : List Nat} {r : ColumnRef} :
      c.operands[i]? = some d → MentionsAt d place r → MentionsAt c (i :: place) r

/-- The column is in the list of clauses, in the one that the first number counts. -/
inductive ListedAt : List Clause → List Nat → ColumnRef → Prop
  | item {cs : List Clause} {c : Clause} {i : Nat} {place : List Nat} {r : ColumnRef} :
      cs[i]? = some c → MentionsAt c place r → ListedAt cs (i :: place) r

theorem mem_children_of_mem_operands (c d : Clause) (h : d ∈ c.operands) : d ∈ c.children := by
  cases c <;> first | exact h | cases h

theorem columnRefs_eq (c : Clause) :
    columnRefs c = c.column?.toList ++ columnRefsOfAll c.operands := by
  cases c <;> simp [columnRefs, columnRefsOfAll, column?, operands]

theorem mentionsAt_column_iff (c r : ColumnRef) (place : List Nat) :
    MentionsAt (.column c) place r ↔ place = [] ∧ r = c := by
  constructor
  · intro h
    cases h with
    | here => exact ⟨rfl, rfl⟩
    | inside hd _ => cases hd
  · rintro ⟨rfl, rfl⟩
    exact .here

theorem mentionsAt_iff_listedAt (c : Clause) (r : ColumnRef) (place : List Nat)
    (h : c.column? = none) : MentionsAt c place r ↔ ListedAt c.operands place r := by
  constructor
  · intro hc
    cases hc with
    | here => cases h
    | inside hd hr => exact .item hd hr
  · intro hc
    cases hc with
    | item hd hr => exact .inside hd hr

/-! ### All places in order -/

/-- One place is further to the left than the other: where they part its number is smaller. -/
def Before (place other : List Nat) : Prop := List.Lex (· < ·) place other

theorem not_before_of_before (place other : List Nat) (h : Before place other) :
    ¬Before other place :=
  List.lex_asymm (fun hlt => Nat.lt_asymm hlt) h

/-- The columns with their places, in the order of the places. -/
structure Enumerates (At : List Nat → ColumnRef → Prop) (ps : List (List Nat × ColumnRef)) :
    Prop where
  ordered : ps.Pairwise fun p p' => Before p.1 p'.1
  mem_iff : ∀ place r, (place, r) ∈ ps ↔ At place r

theorem exists_enumeration_of_all (cs : List Clause)
    (h : ∀ c ∈ cs, ∃ ps, Enumerates (MentionsAt c) ps ∧ ps.map Prod.snd = columnRefs c) :
    ∃ ps, Enumerates (ListedAt cs) ps ∧ ps.map Prod.snd = columnRefsOfAll cs := by
  choose! placed hplaced hrefs using h
  have hmem : ∀ x ∈ cs.zipIdx, cs[x.2]? = some x.1 := fun x hx =>
    List.mem_zipIdx_iff_getElem?.mp hx
  refine ⟨cs.zipIdx.flatMap fun x => (placed x.1).map fun p => (x.2 :: p.1, p.2), ⟨?_, ?_⟩, ?_⟩
  · rw [List.pairwise_flatMap]
    constructor
    · intro x hx
      rw [List.pairwise_map]
      exact (hplaced x.1 (List.mem_of_getElem? (hmem x hx))).ordered.imp .cons
    · refine (Join.Place.pairwise_zipIdx cs).imp fun hlt p hp p' hp' => ?_
      obtain ⟨_, _, rfl⟩ := List.mem_map.mp hp
      obtain ⟨_, _, rfl⟩ := List.mem_map.mp hp'
      exact .rel hlt
  · intro place r
    simp only [List.mem_flatMap, List.mem_map, Prod.exists, Prod.mk.injEq]
    constructor
    · rintro ⟨c, i, hci, before, s, hs, rfl, rfl⟩
      have hc := hmem (c, i) hci
      exact .item hc (((hplaced c (List.mem_of_getElem? hc)).mem_iff before s).mp hs)
    · rintro ⟨hc, hr⟩
      refine ⟨_, _, List.mem_zipIdx_iff_getElem?.mpr hc, _, r, ?_, rfl, rfl⟩
      exact ((hplaced _ (List.mem_of_getElem? hc)).mem_iff _ r).mpr hr
  · rw [List.map_flatMap, columnRefsOfAll_eq_flatMap]
    conv_rhs => rw [← List.zipIdx_map_fst 0 cs, List.flatMap_map]
    refine List.flatMap_congr fun x hx => ?_
    rw [List.map_map, ← hrefs x.1 (List.mem_of_getElem? (hmem x hx))]
    rfl

theorem exists_enumeration (c : Clause) :
    ∃ ps, Enumerates (MentionsAt c) ps ∧ ps.map Prod.snd = columnRefs c := by
  induction c using induct_children with
  | step c ih =>
    cases hcolumn : c.column? with
    | some r =>
      obtain rfl : c = .column r := by
        cases c <;> cases hcolumn
        rfl
      refine ⟨[([], r)], ⟨List.pairwise_singleton _ _, fun place s => ?_⟩, rfl⟩
      rw [mentionsAt_column_iff, List.mem_singleton, Prod.mk.injEq]
    | none =>
      obtain ⟨ps, hps, hrefs⟩ := exists_enumeration_of_all c.operands fun d hd =>
        ih d (mem_children_of_mem_operands c d hd)
      refine ⟨ps, ⟨hps.ordered, fun place r => ?_⟩, ?_⟩
      · rw [hps.mem_iff, mentionsAt_iff_listedAt c r place hcolumn]
      · rw [hrefs, columnRefs_eq, hcolumn]
        rfl

theorem mem_columnRefsOfAll_iff (cs : List Clause) (r : ColumnRef) :
    r ∈ columnRefsOfAll cs ↔ ∃ place, ListedAt cs place r := by
  obtain ⟨ps, hps, hrefs⟩ := exists_enumeration_of_all cs fun c _ => exists_enumeration c
  simp only [← hrefs, List.mem_map, Prod.exists, exists_eq_right, hps.mem_iff]

/-! ### Owners in order -/

/-- The column belongs to the clause: its table or alias, or else the table that its qualifier
names. -/
inductive OwnedBy : ColumnRef → Clause → Prop
  | source {name : String} {s : Source} {qualifier : Option String} :
      OwnedBy ⟨name, some s, qualifier⟩ s.toClause
  | qualifier {name qualifier : String} : OwnedBy ⟨name, none, some qualifier⟩ (.named qualifier)

theorem ownedBy_iff (r : ColumnRef) (e : Clause) :
    OwnedBy r e ↔ ∃ o, Owner.ofColumn? r = some o ∧ o.toClause = e := by
  obtain ⟨name, source, qualifier⟩ := r
  constructor
  · rintro (_ | _)
    · exact ⟨.source _, rfl, rfl⟩
    · exact ⟨.named _, rfl, rfl⟩
  · rintro ⟨o, ho, rfl⟩
    cases source with
    | some s =>
      obtain rfl := Option.some.inj ho
      exact .source
    | none =>
      cases qualifier with
      | some q =>
        obtain rfl := Option.some.inj ho
        exact .qualifier
      | none => cases ho

/-- The clause owns the column at the place, and no column before it has the same owner. -/
structure OwnsFirst (columns : List Clause) (place : List Nat) (e : Clause) : Prop where
  owns : ∃ r, ListedAt columns place r ∧ OwnedBy r e
  first : ∀ other r d, ListedAt columns other r → OwnedBy r d → d.same e = true →
    ¬Before other place

theorem exists_same_unrepeated (cs : List Clause) (o : Owner) (c : Clause) (ho : o.toClause ∈ cs)
    (hsame : o.toClause.same c = true) : ∃ d ∈ unrepeated cs, d.same c = true := by
  obtain ⟨d, hd, hkept⟩ := exists_mem_unrepeated cs o.toClause ho
  refine ⟨d, hd, ?_⟩
  rcases hkept with rfl | hkept
  · exact hsame
  · obtain ⟨p, rfl⟩ := exists_owner_right o c hsame
    exact same_trans_owner d o p hkept hsame

theorem not_before_of_last {α : Type} (ps : List (List Nat × α)) (p : List Nat × α)
    (hordered : (ps ++ [p]).Pairwise fun p p' => Before p.1 p'.1) :
    ∀ k ∈ ps ++ [p], ¬Before p.1 k.1 := by
  obtain ⟨_, _, hlast⟩ := List.pairwise_append.mp hordered
  intro k hk
  rcases List.mem_append.mp hk with hk | hk
  · exact not_before_of_before _ _ (hlast k hk p List.mem_cons_self)
  · rw [List.mem_singleton.mp hk]
    exact List.lex_irrefl Nat.lt_irrefl _

/-- Of clauses at places in order each that is kept has the first place of those that are the
same. -/
theorem exists_places_of_unrepeated (ps : List (List Nat × Clause))
    (hordered : ps.Pairwise fun p p' => Before p.1 p'.1)
    (howners : ∀ p ∈ ps, ∃ o : Owner, p.2 = o.toClause) :
    ∃ kept : List (List Nat × Clause), kept.map Prod.snd = unrepeated (ps.map Prod.snd) ∧
      kept.Sublist ps ∧ ∀ k ∈ kept, ∀ p ∈ ps, p.2.same k.2 = true → ¬Before p.1 k.1 := by
  induction ps using List.reverseRecOn with
  | nil => exact ⟨[], rfl, .slnil, nofun⟩
  | append_singleton ps p ih =>
    obtain ⟨kept, hkept, hsublist, hfirst⟩ := ih (List.pairwise_append.mp hordered).1 fun k hk =>
      howners k (List.mem_append_left _ hk)
    have hlast := not_before_of_last ps p hordered
    have hstep : unrepeated ((ps ++ [p]).map Prod.snd) = addNew (kept.map Prod.snd) p.2 := by
      rw [hkept, unrepeated, List.map_append, List.foldl_append]
      rfl
    rw [hstep, addNew]
    split
    · refine ⟨kept, rfl, hsublist.trans (List.sublist_append_left ps [p]), fun k hk p' hp' => ?_⟩
      rcases List.mem_append.mp hp' with hp' | hp'
      · exact hfirst k hk p' hp'
      · rw [List.mem_singleton.mp hp']
        exact fun _ => hlast k (List.mem_append_left _ (hsublist.mem hk))
    · next hnew =>
      have hsublist' := hsublist.append (List.Sublist.refl [p])
      refine ⟨kept ++ [p], by simp, hsublist', fun k hk p' hp' hsame => ?_⟩
      rcases List.mem_append.mp hp' with hbefore | hp'
      · rcases List.mem_append.mp hk with hk | hk
        · exact hfirst k hk p' hbefore hsame
        · -- A clause that is the same as an earlier one is the same as one that is kept.
          obtain rfl := List.mem_singleton.mp hk
          obtain ⟨o, ho⟩ := howners p' hp'
          rw [ho] at hsame
          obtain ⟨d, hd, hsame'⟩ := exists_same_unrepeated (ps.map Prod.snd) o k.2
            (List.mem_map.mpr ⟨p', hbefore, ho⟩) hsame
          exact absurd (List.any_eq_true.mpr ⟨d, hkept ▸ hd, hsame'⟩) hnew
      · rw [List.mem_singleton.mp hp']
        exact hlast k (hsublist'.mem hk)

/-- The owners of a list of columns, with the places of the columns. -/
theorem exists_owner_places (columns : List Clause) :
    ∃ ps : List (List Nat × Clause),
      ps.map Prod.snd = (columnOwners columns).map Owner.toClause ∧
      (ps.Pairwise fun p p' => Before p.1 p'.1) ∧
      ∀ place e, (place, e) ∈ ps ↔ ∃ r, ListedAt columns place r ∧ OwnedBy r e := by
  obtain ⟨ps, hps, hrefs⟩ := exists_enumeration_of_all columns fun c _ => exists_enumeration c
  refine ⟨ps.filterMap fun p => (Owner.ofColumn? p.2).map fun o => (p.1, o.toClause), ?_, ?_, ?_⟩
  · rw [columnOwners, ← hrefs, List.map_filterMap, List.filterMap_map, List.map_filterMap]
    refine List.filterMap_congr fun p _ => ?_
    rw [Option.map_map]
    rfl
  · refine List.Pairwise.filterMap _ (fun p p' hlt q hq q' hq' => ?_) hps.ordered
    obtain ⟨_, _, rfl⟩ := Option.map_eq_some_iff.mp hq
    obtain ⟨_, _, rfl⟩ := Option.map_eq_some_iff.mp hq'
    exact hlt
  · intro place e
    simp only [List.mem_filterMap, Option.map_eq_some_iff, Prod.exists, Prod.mk.injEq,
      hps.mem_iff, ownedBy_iff]
    constructor
    · rintro ⟨_, r, hr, o, ho, rfl, rfl⟩
      exact ⟨r, hr, o, ho, rfl⟩
    · rintro ⟨r, hr, o, ho, rfl⟩
      exact ⟨place, r, hr, o, ho, rfl, rfl⟩

theorem same_self_of_ownedBy (columns : List Clause) (place : List Nat) (r : ColumnRef) (e : Clause)
    (hnan : ∀ place r s, ListedAt columns place r → r.source = some s → s.base.hasNaN = false)
    (hr : ListedAt columns place r) (he : OwnedBy r e) : e.same e = true := by
  cases he with
  | source =>
    rw [same_toClause, hnan place _ _ hr rfl]
    rfl
  | qualifier => exact decide_eq_true rfl

end Clause

namespace Select

open Clause

/--
What a SELECT without a list of its own selects from, where no owner of its columns has a NaN among
its defaults: a clause is the same as one of the list if and only if it is the same as the owner of
a column, no two of the list are equal or the same, and they are the owners of columns at places
from left to right, each the first place of a column with this owner.
-/
theorem effectiveFroms_lists_owners (x : Select) (hfroms : x.froms = [])
    (hnan : ∀ place r s, ListedAt x.columns place r → r.source = some s →
      s.base.hasNaN = false) :
    (∀ e, (∃ f ∈ x.effectiveFroms, f.same e = true) ↔
      ∃ place r d, ListedAt x.columns place r ∧ OwnedBy r d ∧ d.same e = true) ∧
    (x.effectiveFroms.Pairwise fun e f => e ≠ f ∧ e.same f = false) ∧
    ∃ places, places.Pairwise Before ∧
      List.Forall₂ (OwnsFirst x.columns) places x.effectiveFroms := by
  obtain ⟨ps, howners, hordered, hmem⟩ := exists_owner_places x.columns
  have hlist : x.effectiveFroms = unrepeated (ps.map Prod.snd) := by
    rw [effectiveFroms, hfroms, howners, ← map_ownersOf]
    rfl
  have howner : ∀ p ∈ ps, ∃ o : Owner, p.2 = o.toClause := by
    intro p hp
    obtain ⟨r, _, hr⟩ := (hmem p.1 p.2).mp hp
    obtain ⟨o, _, ho⟩ := (ownedBy_iff r p.2).mp hr
    exact ⟨o, ho.symm⟩
  obtain ⟨kept, hkept, hsublist, hfirst⟩ := exists_places_of_unrepeated ps hordered howner
  have hself : ∀ k ∈ ps, k.2.same k.2 = true := by
    intro k hk
    obtain ⟨r, hr, he⟩ := (hmem k.1 k.2).mp hk
    exact same_self_of_ownedBy x.columns k.1 r k.2 hnan hr he
  rw [hlist]
  refine ⟨fun e => ⟨?_, ?_⟩, ?_, kept.map Prod.fst, ?_, ?_⟩
  · rintro ⟨f, hf, hsame⟩
    obtain ⟨k, hk, rfl⟩ := List.mem_map.mp ((unrepeated_sublist _).mem hf)
    obtain ⟨r, hr, he⟩ := (hmem k.1 k.2).mp hk
    exact ⟨k.1, r, k.2, hr, he, hsame⟩
  · rintro ⟨place, r, d, hr, hd, hsame⟩
    have hp : (place, d) ∈ ps := (hmem place d).mpr ⟨r, hr, hd⟩
    obtain ⟨o, ho⟩ := howner _ hp
    obtain rfl : d = o.toClause := ho
    exact exists_same_unrepeated _ o e (List.mem_map.mpr ⟨_, hp, rfl⟩) hsame
  · refine (pairwise_foldl_addNew (ps.map Prod.snd) [] .nil).imp_of_mem fun {e f} he _ hne => ?_
    refine ⟨?_, hne⟩
    rintro rfl
    obtain ⟨k, hk, rfl⟩ := List.mem_map.mp ((unrepeated_sublist _).mem he)
    rw [hself k hk] at hne
    cases hne
  · rw [List.pairwise_map]
    exact hordered.sublist hsublist
  · rw [← hkept, List.forall₂_map_left_iff, List.forall₂_map_right_iff, List.forall₂_same]
    intro k hk
    refine ⟨(hmem k.1 k.2).mp (hsublist.mem hk), fun other r d hr hd hsame => ?_⟩
    exact hfirst k hk (other, d) ((hmem other d).mpr ⟨r, hr, hd⟩) hsame

/-- The users are mentioned first inside of parentheses, and then once more. -/
def mentioned : List Clause :=
  [.unary (some .not) (.group (isUserOf "logs")) none,
   .junction .and [.column { name := "total", qualifier := some "scores" }, userId],
   .column { name := "rank" }, .column { name := "place", qualifier := some "logs" }]

theorem effectiveFroms_lists_owners_mentioned :
    let x : Select := { columns := mentioned }
    x.froms = [] ∧
      (∀ place r s, ListedAt x.columns place r → r.source = some s → s.base.hasNaN = false) ∧
      x.effectiveFroms = [.table users, .named "logs", .named "scores"] ∧
      (∃ f ∈ x.effectiveFroms, f.same (.table users) = true) ∧
      ∃ places, places.Pairwise Before ∧
        List.Forall₂ (OwnsFirst x.columns) places [.table users, .named "logs", .named "scores"] := by
  intro x
  have hnan : ∀ place r s, ListedAt x.columns place r → r.source = some s →
      s.base.hasNaN = false := by
    intro place r s hr hs
    have hmem := (mem_columnRefsOfAll_iff x.columns r).mpr ⟨place, hr⟩
    have hrefs : columnRefsOfAll x.columns
        = [⟨"id", some (.table users), none⟩, ⟨"user", none, some "logs"⟩,
          ⟨"total", none, some "scores"⟩, ⟨"id", some (.table users), none⟩,
          ⟨"rank", none, none⟩, ⟨"place", none, some "logs"⟩] := rfl
    have hsource : ∀ r ∈ columnRefsOfAll x.columns, r.source ∈ [some (.table users), none] := by
      rw [hrefs]
      decide
    have hs' := hsource r hmem
    rw [hs] at hs'
    obtain rfl : s = .table users := by simpa using hs'
    rfl
  have hfroms : x.effectiveFroms = [.table users, .named "logs", .named "scores"] := by rfl
  obtain ⟨hiff, _, hplaces⟩ := effectiveFroms_lists_owners x rfl hnan
  rw [hfroms] at hplaces
  refine ⟨rfl, hnan, hfroms, (hiff _).mpr ?_, hplaces⟩
  exact ⟨[1, 1], _, _, .item rfl (.inside rfl .here), .source, rfl⟩

end Select

end BoundSql
