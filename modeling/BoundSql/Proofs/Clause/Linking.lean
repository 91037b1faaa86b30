import BoundSql.Proofs.Clause.Joining

/-!
# Places of links

A link of a join stands at a place: at a leaf of the left side, with a column of the right side or
of that leaf that references the other one. The links of a join are those at all places, taken from
leaf to leaf, at a leaf from the right side to the left one, and on a side in the declared order of
the columns. They decide what is inferred, and for two sources alone the sides may be swapped.
-/

namespace BoundSql

open Source (Link)

namespace Source

/-- The link that a column of the source makes with another source. -/
def linkBy (source target : Source) (c : Column) : Option Link := do
  let r ← c.options.reference
  if r.table = target.base.name then some ⟨target, r.column, source, c.name⟩ else none

theorem linksTo_eq (source target : Source) :
    source.linksTo target = source.base.columns.filterMap (source.linkBy target) := by
  rw [linksTo, Table.references, List.filter_filterMap, List.map_filterMap]
  refine List.filterMap_congr fun c _ => ?_
  unfold linkBy
  cases c.options.reference with
  | none => rfl
  | some r => by_cases h : r.table = target.base.name <;> simp [h]

/-- The column that the link references is not declared. -/
def Link.isDangling (l : Link) : Bool := !l.referenced.base.hasColumn l.referencedColumn

end Source

namespace Join

/-- Where a link may stand: the position of a leaf of the left side, and that of a column, of the
leaf itself or of the right side. -/
structure Place where
  leaf : Nat
  ofLeaf : Bool
  column : Nat

namespace Place

def Before (p p' : Place) : Prop :=
  p.leaf < p'.leaf ∨ p.leaf = p'.leaf ∧
    (p.ofLeaf = false ∧ p'.ofLeaf = true ∨ p.ofLeaf = p'.ofLeaf ∧ p.column < p'.column)

/-- The source whose column stands at the place, and the one that the column may reference. -/
def ends? (lefts : List Source) (right : Source) (p : Place) : Option (Source × Source) :=
  lefts[p.leaf]?.map fun leaf => if p.ofLeaf then (leaf, right) else (right, leaf)

def link? (lefts : List Source) (right : Source) (p : Place) : Option Link := do
  let (source, target) ← p.ends? lefts right
  let c ← source.base.columns[p.column]?
  source.linkBy target c

/-! ### Places in order -/

theorem not_before (p p' : Place) (h : p.Before p') : ¬p'.Before p := by
  grind [Before]

theorem nodup_of_pairwise (ps : List Place) (h : ps.Pairwise Before) : ps.Nodup := by
  refine h.imp fun {p p'} h => ?_
  rintro rfl
  exact p.not_before p h h

def ofColumns (leaf : Nat) (ofLeaf : Bool) (cs : List Column) : List Place :=
  cs.zipIdx.map fun (_, column) => ⟨leaf, ofLeaf, column⟩

def atLeaf (right leaf : Source) (i : Nat) : List Place :=
  ofColumns i false right.base.columns ++ ofColumns i true leaf.base.columns

/-- Every place of a column, whether it references something or not. -/
def all (lefts : List Source) (right : Source) : List Place :=
  lefts.zipIdx.flatMap fun (leaf, i) => atLeaf right leaf i

theorem pairwise_zipIdx {α : Type} (xs : List α) :
    xs.zipIdx.Pairwise fun x y => x.2 < y.2 := by
  rw [← List.pairwise_map, List.zipIdx_map_snd]
  exact List.pairwise_lt_range'

theorem mem_ofColumns (p : Place) (leaf : Nat) (ofLeaf : Bool) (cs : List Column) :
    p ∈ ofColumns leaf ofLeaf cs ↔
      p.leaf = leaf ∧ p.ofLeaf = ofLeaf ∧ ∃ c, cs[p.column]? = some c := by
  simp only [ofColumns, List.mem_map, Prod.exists, List.mem_zipIdx_iff_getElem?]
  constructor
  · rintro ⟨c, column, hc, rfl⟩
    exact ⟨rfl, rfl, c, hc⟩
  · rintro ⟨rfl, rfl, c, hc⟩
    exact ⟨c, p.column, hc, rfl⟩

theorem pairwise_ofColumns (leaf : Nat) (ofLeaf : Bool) (cs : List Column) :
    (ofColumns leaf ofLeaf cs).Pairwise Before := by
  rw [ofColumns, List.pairwise_map]
  exact (pairwise_zipIdx cs).imp fun h => Or.inr ⟨rfl, Or.inr ⟨rfl, h⟩⟩

theorem leaf_of_mem_atLeaf (right leaf : Source) (i : Nat) (p : Place)
    (h : p ∈ atLeaf right leaf i) : p.leaf = i := by
  rcases List.mem_append.mp h with h | h
  · exact ((mem_ofColumns p ..).mp h).1
  · exact ((mem_ofColumns p ..).mp h).1

theorem pairwise_atLeaf (right leaf : Source) (i : Nat) :
    (atLeaf right leaf i).Pairwise Before := by
  rw [atLeaf, List.pairwise_append]
  refine ⟨pairwise_ofColumns .., pairwise_ofColumns .., fun p hp p' hp' => ?_⟩
  obtain ⟨hleaf, hside, _⟩ := (mem_ofColumns p ..).mp hp
  obtain ⟨hleaf', hside', _⟩ := (mem_ofColumns p' ..).mp hp'
  exact Or.inr ⟨hleaf.trans hleaf'.symm, Or.inl ⟨hside, hside'⟩⟩

theorem pairwise_all (lefts : List Source) (right : Source) :
    (all lefts right).Pairwise Before := by
  rw [all, List.pairwise_flatMap]
  refine ⟨fun x _ => pairwise_atLeaf right x.1 x.2,
    (pairwise_zipIdx lefts).imp fun hlt p hp p' hp' => Or.inl ?_⟩
  rwa [leaf_of_mem_atLeaf _ _ _ p hp, leaf_of_mem_atLeaf _ _ _ p' hp']

theorem mem_all (lefts : List Source) (right : Source) (p : Place)
    (h : (p.link? lefts right).isSome) : p ∈ all lefts right := by
  obtain ⟨l, hl⟩ := Option.isSome_iff_exists.mp h
  simp only [link?, ends?, Option.bind_eq_bind, Option.bind_eq_some_iff,
    Option.map_eq_some_iff] at hl
  obtain ⟨_, ⟨leaf, hleaf, rfl⟩, c, hc, _⟩ := hl
  refine List.mem_flatMap.mpr ⟨(leaf, p.leaf), List.mem_zipIdx_iff_getElem?.mpr hleaf, ?_⟩
  change p ∈ atLeaf right leaf p.leaf
  rw [atLeaf, List.mem_append, mem_ofColumns, mem_ofColumns]
  cases hside : p.ofLeaf with
  | false =>
    rw [hside] at hc
    exact Or.inl ⟨rfl, rfl, c, hc⟩
  | true =>
    rw [hside] at hc
    exact Or.inr ⟨rfl, rfl, c, hc⟩

theorem links_ofColumns (lefts : List Source) (right source target : Source) (leaf : Nat)
    (ofLeaf : Bool)
    (h : ∀ column, ends? lefts right ⟨leaf, ofLeaf, column⟩ = some (source, target)) :
    (ofColumns leaf ofLeaf source.base.columns).filterMap (link? lefts right)
      = source.linksTo target := by
  have hat : ∀ x ∈ source.base.columns.zipIdx,
      link? lefts right ⟨leaf, ofLeaf, x.2⟩ = source.linkBy target x.1 := by
    intro x hx
    simp only [link?, h, Option.bind_eq_bind, Option.bind_some,
      List.mem_zipIdx_iff_getElem?.mp hx]
  rw [ofColumns, List.filterMap_map, Source.linksTo_eq]
  conv_rhs => rw [← List.zipIdx_map_fst 0 source.base.columns, List.filterMap_map]
  exact List.filterMap_congr hat

theorem links_atLeaf (lefts : List Source) (right leaf : Source) (i : Nat)
    (h : lefts[i]? = some leaf) :
    (atLeaf right leaf i).filterMap (link? lefts right)
      = right.linksTo leaf ++ leaf.linksTo right := by
  have hright := links_ofColumns lefts right right leaf i false fun _ => by rw [ends?, h]; rfl
  have hleaf := links_ofColumns lefts right leaf right i true fun _ => by rw [ends?, h]; rfl
  rw [atLeaf, List.filterMap_append, hright, hleaf]

theorem links_all (lefts : List Source) (right : Source) :
    (all lefts right).filterMap (link? lefts right) = Join.links lefts right := by
  rw [all, List.filterMap_flatMap, Join.links]
  conv_rhs => rw [← List.zipIdx_map_fst 0 lefts, List.flatMap_map]
  exact List.flatMap_congr fun x hx =>
    links_atLeaf lefts right x.1 x.2 (List.mem_zipIdx_iff_getElem?.mp hx)

end Place

/-! ### Links in order -/

/-- The list holds the link of each place that has one, once, in the order of the places. -/
def Enumerates (lefts : List Source) (right : Source) (ls : List Link) : Prop :=
  ∃ ps : List Place, ps.Pairwise Place.Before ∧
    (∀ p : Place, p ∈ ps ↔ (p.link? lefts right).isSome = true) ∧
    ps.map (Place.link? lefts right) = ls.map some

theorem map_filter_isSome {α β : Type} (f : α → Option β) (xs : List α) :
    (xs.filter fun x => (f x).isSome).map f = (xs.filterMap f).map some := by
  rw [← List.filterMap_eq_map, List.filterMap_filter, List.map_filterMap]
  refine List.filterMap_congr fun x _ => ?_
  rw [Function.comp_apply]
  cases f x <;> rfl

theorem enumerates_links (lefts : List Source) (right : Source) :
    Enumerates lefts right (links lefts right) := by
  refine ⟨(Place.all lefts right).filter fun p => (p.link? lefts right).isSome,
    (Place.pairwise_all lefts right).filter _, fun p => ?_, ?_⟩
  · rw [List.mem_filter]
    exact ⟨And.right, fun h => ⟨Place.mem_all lefts right p h, h⟩⟩
  · rw [← Place.links_all]
    exact map_filter_isSome ..

theorem enumerates_iff (lefts : List Source) (right : Source) (ls : List Link) :
    Enumerates lefts right ls ↔ ls = links lefts right := by
  constructor
  · rintro ⟨ps, hps, hmem, hls⟩
    obtain ⟨qs, hqs, hmem', hlinks⟩ := enumerates_links lefts right
    have hperm : ps.Perm qs := by
      rw [List.perm_ext_iff_of_nodup (Place.nodup_of_pairwise ps hps)
        (Place.nodup_of_pairwise qs hqs)]
      exact fun p => (hmem p).trans (hmem' p).symm
    -- Both are in order, and the order leaves no choice.
    have hsame : ps = qs :=
      hperm.eq_of_pairwise (fun p q _ _ h h' => absurd h' (p.not_before q h)) hps hqs
    rw [hsame, hlinks] at hls
    exact (List.map_injective_iff.mpr (Option.some_injective _) hls).symm
  · rintro rfl
    exact enumerates_links lefts right

/-! ### Undeclared columns -/

theorem hasColumn_referencing (lefts : List Source) (right : Source) (l : Link)
    (h : l ∈ links lefts right) : l.referencing.base.hasColumn l.referencingColumn = true := by
  obtain ⟨s, _, hl | hl⟩ := (mem_links lefts right l).mp h
  · obtain ⟨c, r, hc, _, rfl⟩ := (right.mem_linksTo s l).mp hl
    exact right.base.hasColumn_of_mem_references c r hc
  · obtain ⟨c, r, hc, _, rfl⟩ := (s.mem_linksTo right l).mp hl
    exact s.base.hasColumn_of_mem_references c r hc

theorem declared_iff (lefts : List Source) (right : Source) (l : Link)
    (h : l ∈ links lefts right) : l.Declared ↔ l.isDangling = false := by
  rw [Link.Declared, Link.isDangling, Bool.not_eq_false']
  exact and_iff_left (hasColumn_referencing lefts right l h)

theorem declared_of_find? (lefts : List Source) (right : Source)
    (h : (links lefts right).find? Link.isDangling = none) :
    ∀ l ∈ links lefts right, l.Declared := by
  intro l hl
  rw [declared_iff lefts right l hl, ← Bool.not_eq_true]
  exact List.find?_eq_none.mp h l hl

theorem infer_of_dangling (left : Clause) (right : Source) (outer : Bool) (l : Link)
    (h : (links left.sources right).find? Link.isDangling = some l) :
    infer left right outer
      = .error (.unknownColumns l.referenced.base.name [l.referencedColumn]) := by
  obtain ⟨hl, before, after, hlinks, hbefore⟩ := List.find?_eq_some_iff_append.mp h
  have hdeclared : ∀ m ∈ before, m.Declared := by
    intro m hm
    have hmem : m ∈ links left.sources right := by
      rw [hlinks]
      exact List.mem_append_left _ hm
    rw [declared_iff left.sources right m hmem]
    simpa using hbefore m hm
  have hfails : l.condition
      = .error (.unknownColumns l.referenced.base.name [l.referencedColumn]) := by
    rw [Link.isDangling, Bool.not_eq_true'] at hl
    rw [Link.condition, Source.column, hl]
    rfl
  rw [infer, hlinks, List.mapM_append, Link.conditions_of_declared before hdeclared,
    List.mapM_cons, hfails]
  rfl

theorem find?_of_infer (left : Clause) (right : Source) (outer : Bool) (j : Join)
    (h : infer left right outer = .ok j) :
    (links left.sources right).find? Link.isDangling = none := by
  cases hfind : (links left.sources right).find? Link.isDangling with
  | none => rfl
  | some l =>
    rw [infer_of_dangling left right outer l hfind] at h
    cases h

/-! ### Sides swapped -/

theorem links_single (s t : Source) : links [s] t = t.linksTo s ++ s.linksTo t :=
  List.append_nil _

theorem links_swap (s t : Source) : (links [s] t).Perm (links [t] s) := by
  rw [links_single, links_single]
  exact List.perm_append_comm

end Join

/-- The members of an AND list, or the condition itself. -/
def Clause.conjuncts : Clause → List Clause
  | .junction .and cs => cs
  | c => [c]

namespace Join

theorem conjuncts_onClause (ls : List Link) (h : ls ≠ []) :
    (onClause (ls.map Link.equality)).conjuncts = ls.map Link.equality := by
  match ls, h with
  | [l], _ => rfl
  | l :: l' :: ls, _ => rw [onClause_equalities _ (by simp), Clause.conjuncts]

theorem infer_swap (s t : Source) (outer outer' : Bool) (j : Join)
    (h : infer s.toClause t outer = .ok j) :
    ∃ j', infer t.toClause s outer' = .ok j' ∧ j.on.conjuncts.Perm j'.on.conjuncts := by
  have hdeclared := declared_of_find? s.toClause.sources t (find?_of_infer _ _ _ _ h)
  obtain ⟨hlinks, rfl⟩ := (infer_eq_ok s.toClause t outer j hdeclared).mp h
  rw [s.sources_toClause] at hdeclared hlinks ⊢
  -- Swapped, the links are the same ones: again there are some, and all are declared.
  have hswap := links_swap s t
  have hdeclared' : ∀ l ∈ links t.toClause.sources s, l.Declared := by
    rw [t.sources_toClause]
    exact fun l hl => hdeclared l (hswap.mem_iff.mpr hl)
  have hlinks' : links t.toClause.sources s ≠ [] := by
    rw [t.sources_toClause]
    exact fun hnone => hlinks (List.Perm.eq_nil (hnone ▸ hswap))
  refine ⟨_, (infer_eq_ok t.toClause s outer' _ hdeclared').mpr ⟨hlinks', rfl⟩, ?_⟩
  rw [conjuncts_onClause _ hlinks, conjuncts_onClause _ hlinks', t.sources_toClause]
  exact hswap.map Link.equality

/--
The links between the leaves of the left side and the right one decide what is inferred. They stand
in the order of their places, and each relates a leaf and the right side. Without one there is no
relation; otherwise the first one that references an undeclared column makes the join fail; and
otherwise each gives its equality, a single one alone and several in one AND list. For two sources
the sides may be swapped, up to the order of the equalities.
-/
theorem infer_follows_links :
    (∀ left right outer, ∃ ls, (∀ ls', Enumerates left.sources right ls' ↔ ls' = ls) ∧
      (∀ l ∈ ls, (l.referenced ∈ left.sources ∧ l.referencing = right) ∨
        (l.referenced = right ∧ l.referencing ∈ left.sources)) ∧
      (infer left right outer
        = .error (.unrelated (left.sources.map Source.name) right.name) ↔ ls = []) ∧
      (∀ l, ls.find? Link.isDangling = some l → infer left right outer
        = .error (.unknownColumns l.referenced.base.name [l.referencedColumn])) ∧
      (ls.find? Link.isDangling = none →
        (∀ l, ls = [l] →
          infer left right outer = .ok ⟨left, right.toClause, l.equality, outer⟩) ∧
        (2 ≤ ls.length → infer left right outer
          = .ok ⟨left, right.toClause, .junction .and (ls.map Link.equality), outer⟩))) ∧
    ∀ s t outer outer' j, infer s.toClause t outer = .ok j →
      ∃ j', infer t.toClause s outer' = .ok j' ∧ j.on.conjuncts.Perm j'.on.conjuncts := by
  refine ⟨fun left right outer => ?_, infer_swap⟩
  refine ⟨links left.sources right, enumerates_iff left.sources right,
    ends_of_mem_links left.sources right, ⟨fun h => ?_, fun h => ?_⟩,
    infer_of_dangling left right outer, fun hfind => ⟨fun l hl => ?_, fun hlong => ?_⟩⟩
  · -- With a link there is a join, or a column that is missing.
    cases hfind : (links left.sources right).find? Link.isDangling with
    | none =>
      rw [infer_of_declared left right outer (declared_of_find? _ _ hfind)] at h
      by_contra hlinks
      rw [if_neg hlinks] at h
      cases h
    | some l =>
      rw [infer_of_dangling left right outer l hfind] at h
      cases h
  · rw [infer, h]
    rfl
  · rw [infer_of_declared left right outer (declared_of_find? _ _ hfind), hl]
    rfl
  · have hlinks : links left.sources right ≠ [] := List.ne_nil_of_length_pos (by omega)
    rw [infer_of_declared left right outer (declared_of_find? _ _ hfind), if_neg hlinks,
      onClause_equalities _ hlong]

open Catalog

/-- The second and the third column reference what people do not have. -/
def visits : Table :=
  ⟨"visits", [⟨"guest", .integer, { reference := some ⟨"people", "id"⟩ }⟩,
    ⟨"host", .integer, { reference := some ⟨"people", "key"⟩ }⟩,
    ⟨"driver", .integer, { reference := some ⟨"people", "number"⟩ }⟩]⟩

theorem infer_follows_links_people :
    (Enumerates [.table houses, .table people] boss
        [⟨boss, "id", .table houses, "owner"⟩, ⟨.table people, "id", boss, "boss"⟩,
          ⟨boss, "id", .table people, "boss"⟩] ∧
      infer ownedHouses.toClause boss true = .ok bossesOfOwners) ∧
    (infer (.table houses) (.table houses) false = .error (.unrelated ["houses"] "houses") ∧
      Enumerates [.table houses] (.table houses) []) ∧
    infer (.table people) (.table visits) false = .error (.unknownColumns "people" ["key"]) ∧
    infer (.table houses) (.table people) false = .ok ownedHouses ∧
    ∃ j j', infer (.table people) boss false = .ok j ∧
      infer boss.toClause (.table people) true = .ok j' ∧
      j.on.conjuncts = [⟨.table people, "id", boss, "boss"⟩,
        ⟨boss, "id", .table people, "boss"⟩].map Link.equality ∧
      j.on.conjuncts.Perm j'.on.conjuncts := by
  obtain ⟨hall, hswap⟩ := infer_follows_links
  refine ⟨?_, ?_, ?_, ?_, ?_⟩
  · obtain ⟨ls, hunique, _, _, _, hjoin⟩ := hall ownedHouses.toClause boss true
    obtain rfl := (hunique _).mp (enumerates_links _ _)
    exact ⟨(hunique _).mpr rfl, (hjoin rfl).2 (by decide)⟩
  · obtain ⟨ls, hunique, _, hnone, _⟩ := hall (.table houses) (.table houses) false
    obtain rfl := (hunique _).mp (enumerates_links _ _)
    exact ⟨hnone.mpr rfl, (hunique _).mpr rfl⟩
  · obtain ⟨ls, hunique, _, _, hdangling, _⟩ := hall (.table people) (.table visits) false
    obtain rfl := (hunique _).mp (enumerates_links _ _)
    exact hdangling ⟨.table people, "key", .table visits, "host"⟩ rfl
  · obtain ⟨ls, hunique, _, _, _, hjoin⟩ := hall (.table houses) (.table people) false
    obtain rfl := (hunique _).mp (enumerates_links _ _)
    exact (hjoin rfl).1 _ rfl
  · obtain ⟨j', hj', hperm⟩ := hswap (.table people) boss false true _ rfl
    exact ⟨_, j', rfl, hj', rfl, hperm⟩

end Join

end BoundSql
