import BoundSql.Proofs.Clause.Association
import BoundSql.Proofs.Clause.Selecting

/-!
# What a statement selects from

The leaves of a list to select from are its entries, and for joins what stands at their ends. This
module says which leaves name an owner, and what is left of a list when a clause is added only if
no clause before is the same.
-/

namespace BoundSql

namespace Clause

/-! ### Clauses that are the same as an owner -/

theorem same_table_iff (c : Clause) (t : Table) :
    c.same (.table t) = true ↔ ∃ s, c = .table s ∧ s.same t = true := by
  cases c <;> simp [same]

theorem same_named_iff (c : Clause) (name : String) :
    c.same (.named name) = true ↔ c = .named name := by
  cases c <;> simp [same]

theorem same_aliased_iff (c : Clause) (a : Alias) :
    c.same (.aliased a) = true ↔ ∃ b, c = .aliased b ∧ b.same a = true := by
  cases c <;> simp [same]

theorem exists_owner (c : Clause) (o : Owner) (h : c.same o.toClause = true) :
    ∃ p : Owner, c = p.toClause := by
  match o, h with
  | .named name, h => exact ⟨.named name, (same_named_iff c name).mp h⟩
  | .source (.table t), h =>
    obtain ⟨s, rfl, _⟩ := (same_table_iff c t).mp h
    exact ⟨.source (.table s), rfl⟩
  | .source (.aliased a), h =>
    obtain ⟨b, rfl, _⟩ := (same_aliased_iff c a).mp h
    exact ⟨.source (.aliased b), rfl⟩

theorem same_owner_comm (o p : Owner) :
    o.toClause.same p.toClause = p.toClause.same o.toClause := by
  match o, p with
  | .source (.table s), .source (.table t) => exact s.same_comm t
  | .source (.aliased a), .source (.aliased b) => exact a.same_comm b
  | .named a, .named b => exact decide_eq_decide.mpr eq_comm
  | .source (.table _), .source (.aliased _) => rfl
  | .source (.table _), .named _ => rfl
  | .source (.aliased _), .source (.table _) => rfl
  | .source (.aliased _), .named _ => rfl
  | .named _, .source (.table _) => rfl
  | .named _, .source (.aliased _) => rfl

theorem same_trans_owner (c : Clause) (o p : Owner) (hc : c.same o.toClause = true)
    (hop : o.toClause.same p.toClause = true) : c.same p.toClause = true := by
  match p, hop with
  | .named name, hop => rwa [(same_named_iff _ name).mp hop] at hc
  | .source (.table t), hop =>
    obtain ⟨s, hs, hst⟩ := (same_table_iff _ t).mp hop
    rw [hs] at hc
    obtain ⟨r, rfl, hrs⟩ := (same_table_iff c s).mp hc
    exact r.same_trans s t hrs hst
  | .source (.aliased a), hop =>
    obtain ⟨b, hb, hba⟩ := (same_aliased_iff _ a).mp hop
    rw [hb] at hc
    obtain ⟨d, rfl, hdb⟩ := (same_aliased_iff c b).mp hc
    exact d.same_trans b a hdb hba

/-- Two clauses that are the same as one owner are the same. -/
theorem same_of_same_owner (c d : Clause) (o : Owner) (hc : c.same o.toClause = true)
    (hd : d.same o.toClause = true) : c.same d = true := by
  obtain ⟨p, rfl⟩ := exists_owner d o hd
  rw [same_owner_comm] at hd
  exact same_trans_owner c o p hc hd

theorem exists_owner_right (o : Owner) (c : Clause) (h : o.toClause.same c = true) :
    ∃ p : Owner, c = p.toClause := by
  rcases o with (t | a) | name <;> cases c <;> first
    | cases h
    | exact ⟨.source (.table _), rfl⟩
    | exact ⟨.source (.aliased _), rfl⟩
    | exact ⟨.named _, rfl⟩

/-- Of two clauses that are the same each is the same as the same owners as the other. -/
theorem same_owner_congr (c d : Clause) (o : Owner) (h : c.same d = true) :
    c.same o.toClause = d.same o.toClause := by
  rw [Bool.eq_iff_iff]
  constructor
  · intro hc
    obtain ⟨p, rfl⟩ := exists_owner c o hc
    obtain ⟨q, rfl⟩ := exists_owner_right p d h
    rw [same_owner_comm] at h
    exact same_trans_owner _ p o h hc
  · intro hd
    obtain ⟨q, rfl⟩ := exists_owner d o hd
    exact same_trans_owner c q o h hd

theorem template_of_same_owner (q : Quoting) (c : Clause) (o : Owner)
    (h : c.same o.toClause = true) : c.template q = [.text (ownerText q o)] := by
  match o, h with
  | .named name, h =>
    rw [(same_named_iff c name).mp h]
    rfl
  | .source (.table t), h =>
    obtain ⟨s, rfl, hst⟩ := (same_table_iff c t).mp h
    rw [Table.same, Bool.and_eq_true, decide_eq_true_eq] at hst
    rw [template, sourceText, hst.1]
    rfl
  | .source (.aliased a), h =>
    obtain ⟨b, rfl, hba⟩ := (same_aliased_iff c a).mp h
    simp only [Alias.same, Table.same, Bool.and_eq_true, decide_eq_true_eq] at hba
    rw [template, sourceText, hba.1.1, hba.2]
    rfl

/-- An owner is rendered as its text, and so is what is the same. -/
theorem template_of_owner (q : Quoting) (c : Clause) (o : Owner)
    (h : c = o.toClause ∨ c.same o.toClause = true) : c.template q = [.text (ownerText q o)] := by
  rcases h with rfl | hsame
  · rcases o with (t | a) | name <;> rfl
  · exact template_of_same_owner q c o hsame

theorem ownerText_eq (q : Quoting) (p o : Owner)
    (h : p.toClause = o.toClause ∨ p.toClause.same o.toClause = true) :
    ownerText q p = ownerText q o := by
  have htemplate := template_of_owner q _ o h
  rw [template_of_owner q _ p (Or.inl rfl)] at htemplate
  exact Piece.text.inj (List.cons.inj htemplate).1

/-! ### Leaves -/

/-- What stands at the ends of joins, from left to right. -/
def leaves : Clause → List Clause
  | join l r _ _ => leaves l ++ leaves r
  | c => [c]

theorem leaves_of_not_join (c : Clause) (h : c.join? = none) : c.leaves = [c] := by
  cases c <;> first | rfl | cases h

theorem leaves_owner (o : Owner) : o.toClause.leaves = [o.toClause] := by
  rcases o with (t | a) | name <;> rfl

theorem mem_leaves_of_mem_sources (c : Clause) (s : Source) (h : s ∈ c.sources) :
    s.toClause ∈ c.leaves := by
  induction c using Clause.induct with
  | join l r on outer ihl ihr _ =>
    rw [sources, List.mem_append] at h
    rw [leaves, List.mem_append]
    exact h.imp ihl ihr
  | table t =>
    rw [List.mem_singleton.mp h]
    exact List.mem_singleton_self _
  | aliased a =>
    rw [List.mem_singleton.mp h]
    exact List.mem_singleton_self _
  | _ => cases h

theorem same_join (l r on : Clause) (outer : Bool) (d : Clause)
    (h : (join l r on outer).same d = true) :
    ∃ l' r' on' outer', d = join l' r' on' outer' ∧ l.same l' = true ∧ r.same r' = true := by
  cases d with
  | join l' r' on' outer' =>
    simp only [same, Bool.and_eq_true] at h
    exact ⟨l', r', on', outer', rfl, h.1.1.1, h.1.1.2⟩
  | _ => cases h

theorem not_join_of_same (c d : Clause) (hc : c.join? = none) (h : c.same d = true) :
    d.join? = none := by
  cases d with
  | join l r on outer => cases c <;> first | cases h | cases hc
  | _ => rfl

theorem leaves_same (c d : Clause) (h : c.same d = true) :
    List.Forall₂ (fun a b => a.same b = true) c.leaves d.leaves := by
  induction c using Clause.induct generalizing d with
  | join l r on outer ihl ihr _ =>
    obtain ⟨l', r', on', outer', rfl, hl, hr⟩ := same_join l r on outer d h
    exact List.rel_append (ihl l' hl) (ihr r' hr)
  | _ =>
    rw [leaves_of_not_join d (not_join_of_same _ d rfl h)]
    exact .cons h .nil

/-! ### Owners among leaves -/

/-- How often an owner is a leaf of some clauses. -/
def timesNamed (o : Owner) (cs : List Clause) : Nat :=
  (cs.flatMap leaves).countP fun c => c.same o.toClause

theorem timesNamed_cons (o : Owner) (c : Clause) (cs : List Clause) :
    timesNamed o (c :: cs) = timesNamed o [c] + timesNamed o cs := by
  simp only [timesNamed, List.flatMap_cons, List.flatMap_nil, List.append_nil, List.countP_append]

theorem timesNamed_append (o : Owner) (cs ds : List Clause) :
    timesNamed o (cs ++ ds) = timesNamed o cs + timesNamed o ds := by
  simp only [timesNamed, List.flatMap_append, List.countP_append]

theorem timesNamed_pos_iff (o : Owner) (cs : List Clause) :
    0 < timesNamed o cs ↔ ∃ c ∈ cs, 0 < timesNamed o [c] := by
  induction cs with
  | nil => simp [timesNamed]
  | cons c cs ih => rw [timesNamed_cons, Nat.add_pos_iff_pos_or_pos, ih, List.exists_mem_cons_iff]

theorem timesNamed_eq_zero_iff (o : Owner) (cs : List Clause) :
    timesNamed o cs = 0 ↔ ∀ c ∈ cs, timesNamed o [c] = 0 := by
  induction cs with
  | nil => simp [timesNamed]
  | cons c cs ih => rw [timesNamed_cons, Nat.add_eq_zero_iff, ih, List.forall_mem_cons]

theorem timesNamed_congr (o : Owner) (c d : Clause) (h : c.same d = true) :
    timesNamed o [c] = timesNamed o [d] := by
  have hleaves := leaves_same c d h
  simp only [timesNamed, List.flatMap_cons, List.flatMap_nil, List.append_nil]
  generalize c.leaves = cs, d.leaves = ds at hleaves
  induction hleaves with
  | nil => rfl
  | cons hab _ ih => rw [List.countP_cons, List.countP_cons, ih, same_owner_congr _ _ o hab]

theorem timesNamed_owner (o p : Owner) :
    timesNamed o [p.toClause] = if p.toClause.same o.toClause then 1 else 0 := by
  rw [timesNamed, List.flatMap_singleton, leaves_owner, List.countP_singleton]

/-! ### Lists without repetitions -/

/-- Clauses one after the other, except those that are the same as one before. -/
def unrepeated (cs : List Clause) : List Clause := cs.foldl addNew []

theorem sublist_foldl_addNew (cs acc : List Clause) :
    (cs.foldl addNew acc).Sublist (acc ++ cs) := by
  induction cs generalizing acc with
  | nil => simp
  | cons c cs ih =>
    refine (ih _).trans ?_
    unfold addNew
    split
    · exact (List.sublist_cons_self c cs).append_left acc
    · rw [List.append_assoc, List.singleton_append]

theorem unrepeated_sublist (cs : List Clause) : (unrepeated cs).Sublist cs :=
  sublist_foldl_addNew cs []

theorem pairwise_foldl_addNew (cs acc : List Clause)
    (h : acc.Pairwise fun c d => c.same d = false) :
    (cs.foldl addNew acc).Pairwise fun c d => c.same d = false := by
  induction cs generalizing acc with
  | nil => exact h
  | cons c cs ih =>
    refine ih _ ?_
    unfold addNew
    split
    · exact h
    · next hnew =>
      rw [List.any_eq_true, not_exists] at hnew
      refine List.pairwise_append.mpr ⟨h, List.pairwise_singleton _ _, fun d hd e he => ?_⟩
      rw [List.mem_singleton.mp he, ← Bool.not_eq_true]
      exact fun hsame => hnew d ⟨hd, hsame⟩

theorem subset_foldl_addNew (cs acc : List Clause) : acc ⊆ cs.foldl addNew acc := by
  induction cs generalizing acc with
  | nil => exact List.Subset.refl acc
  | cons c cs ih =>
    refine List.Subset.trans ?_ (ih _)
    unfold addNew
    split
    · exact List.Subset.refl acc
    · exact List.subset_append_left acc [c]

/-- Each of the clauses is kept, or one that is the same. -/
theorem exists_mem_unrepeated (cs : List Clause) (c : Clause) (h : c ∈ cs) :
    ∃ d ∈ unrepeated cs, d = c ∨ d.same c = true := by
  have hfold : ∀ acc : List Clause, ∃ d ∈ cs.foldl addNew acc, d = c ∨ d.same c = true := by
    induction cs with
    | nil => cases h
    | cons e cs ih =>
      intro acc
      rcases List.mem_cons.mp h with rfl | hc
      · have hkept : ∃ d ∈ addNew acc c, d = c ∨ d.same c = true := by
          unfold addNew
          split
          · next hany =>
            obtain ⟨d, hd, hsame⟩ := List.any_eq_true.mp hany
            exact ⟨d, hd, Or.inr hsame⟩
          · exact ⟨c, by simp, Or.inl rfl⟩
        obtain ⟨d, hd, hsame⟩ := hkept
        exact ⟨d, subset_foldl_addNew cs _ hd, hsame⟩
      · exact ih hc _
  exact hfold []

theorem timesNamed_of_kept (o : Owner) (c d : Clause) (h : d = c ∨ d.same c = true) :
    timesNamed o [d] = timesNamed o [c] := by
  rcases h with rfl | hsame
  · rfl
  · exact timesNamed_congr o d c hsame

/-- No owner gets lost with the repetitions. -/
theorem timesNamed_unrepeated_pos_iff (o : Owner) (cs : List Clause) :
    0 < timesNamed o (unrepeated cs) ↔ 0 < timesNamed o cs := by
  rw [timesNamed_pos_iff, timesNamed_pos_iff]
  constructor
  · rintro ⟨c, hc, hpos⟩
    exact ⟨c, (unrepeated_sublist cs).mem hc, hpos⟩
  · rintro ⟨c, hc, hpos⟩
    obtain ⟨d, hd, hkept⟩ := exists_mem_unrepeated cs c hc
    exact ⟨d, hd, by rwa [timesNamed_of_kept o c d hkept]⟩

/-- Where all clauses that have an owner as a leaf are the same, one of them is left. -/
theorem timesNamed_unrepeated (o : Owner) (cs : List Clause) (c : Clause) (hc : c ∈ cs)
    (hpos : 0 < timesNamed o [c])
    (hsame : ∀ d ∈ cs, ∀ e ∈ cs, 0 < timesNamed o [d] → 0 < timesNamed o [e] → d.same e = true) :
    timesNamed o (unrepeated cs) = timesNamed o [c] := by
  obtain ⟨d, hd, hkept⟩ := exists_mem_unrepeated cs c hc
  have hapart := pairwise_foldl_addNew cs [] .nil
  have hsublist := unrepeated_sublist cs
  rw [← timesNamed_of_kept o c d hkept] at hpos ⊢
  obtain ⟨before, after, hsplit⟩ := List.append_of_mem hd
  rw [unrepeated] at hsplit hsublist
  rw [unrepeated, hsplit]
  rw [hsplit] at hapart hsublist
  have hmem : ∀ e ∈ before ++ d :: after, e ∈ cs := fun e he => hsublist.mem he
  obtain ⟨_, hafter, hbefore⟩ := List.pairwise_append.mp hapart
  have hd : d ∈ cs := hmem d (by simp)
  -- What else is kept does not have the owner, as it would be the same as `d` and not be kept.
  have hother : ∀ e ∈ cs, d.same e = false ∨ e.same d = false → timesNamed o [e] = 0 := by
    intro e he hdiffer
    refine Nat.eq_zero_of_not_pos fun hepos => ?_
    have hde := hsame d hd e he hpos hepos
    have hed := hsame e he d hd hepos hpos
    simp [hde, hed] at hdiffer
  have hbeforeNone : timesNamed o before = 0 := (timesNamed_eq_zero_iff o before).mpr fun e he =>
    hother e (hmem e (by simp [he])) (Or.inr (hbefore e he d (by simp)))
  have hafterNone : timesNamed o after = 0 := (timesNamed_eq_zero_iff o after).mpr fun e he =>
    hother e (hmem e (by simp [he])) (Or.inl (List.rel_of_pairwise_cons hafter he))
  rw [timesNamed_append, timesNamed_cons, hbeforeNone, hafterNone, Nat.zero_add, Nat.add_zero]

/-! ### Owners of columns -/

theorem map_foldl_addOwner (os acc : List Owner) :
    (os.foldl addOwner acc).map Owner.toClause
      = (os.map Owner.toClause).foldl addNew (acc.map Owner.toClause) := by
  induction os generalizing acc with
  | nil => rfl
  | cons o os ih =>
    have hadd : (addOwner acc o).map Owner.toClause
        = addNew (acc.map Owner.toClause) o.toClause := by
      have hany : (acc.map Owner.toClause).any (fun d => d.same o.toClause)
          = acc.any fun p => p.toClause.same o.toClause := List.any_map
      rw [addOwner, addNew, hany]
      split
      · rfl
      · rw [List.map_append, List.map_singleton]
    rw [List.foldl_cons, ih, hadd, List.map_cons, List.foldl_cons]

def columnOwners (columns : List Clause) : List Owner :=
  (columnRefsOfAll columns).filterMap Owner.ofColumn?

theorem map_ownersOf (columns : List Clause) :
    (ownersOf columns).map Owner.toClause
      = unrepeated ((columnOwners columns).map Owner.toClause) :=
  map_foldl_addOwner (columnOwners columns) []

theorem ownersOf_subset (columns : List Clause) : ownersOf columns ⊆ columnOwners columns := by
  have hinjective : Function.Injective Owner.toClause := by
    intro o p h
    rcases o with (t | a) | name <;> rcases p with (t' | a') | name' <;> cases h <;> rfl
  have hsublist := unrepeated_sublist ((columnOwners columns).map Owner.toClause)
  rw [← map_ownersOf] at hsublist
  intro o ho
  exact (List.mem_map_of_injective hinjective).mp (hsublist.mem (List.mem_map_of_mem ho))

theorem exists_mem_ownersOf (columns : List Clause) (o : Owner) (ho : o ∈ columnOwners columns) :
    ∃ p ∈ ownersOf columns, p.toClause = o.toClause ∨ p.toClause.same o.toClause = true := by
  obtain ⟨d, hd, hkept⟩ := exists_mem_unrepeated _ _ (List.mem_map_of_mem ho)
  rw [← map_ownersOf] at hd
  obtain ⟨p, hp, rfl⟩ := List.mem_map.mp hd
  exact ⟨p, hp, hkept⟩

theorem leaves_owners (os : List Owner) :
    (os.map Owner.toClause).flatMap leaves = os.map Owner.toClause := by
  rw [List.flatMap_map, List.map_eq_flatMap]
  exact List.flatMap_congr fun o _ => leaves_owner o

/-- An owner of a column that is the same as itself is named once. -/
theorem timesNamed_ownersOf (columns : List Clause) (o : Owner) (ho : o ∈ columnOwners columns)
    (hself : o.toClause.same o.toClause = true) :
    timesNamed o ((ownersOf columns).map Owner.toClause) = 1 := by
  have hone : timesNamed o [o.toClause] = 1 := by rw [timesNamed_owner, if_pos hself]
  rw [map_ownersOf, ← hone]
  refine timesNamed_unrepeated o _ _ (List.mem_map_of_mem ho) (by omega) fun d hd e he hd' he' => ?_
  obtain ⟨p, _, rfl⟩ := List.mem_map.mp hd
  obtain ⟨q, _, rfl⟩ := List.mem_map.mp he
  rw [timesNamed_owner] at hd' he'
  exact same_of_same_owner _ _ o (by_contra fun h => by simp [h] at hd')
    (by_contra fun h => by simp [h] at he')

end Clause

end BoundSql
