import BoundSql.Clause.Join
import BoundSql.Proofs.Clause.Failure
import BoundSql.Proofs.Clause.Selecting
import BoundSql.Proofs.Schema.Catalog

/-!
# Joins inferred from a catalog

A link whose two columns are declared gives an equality of two columns. Over the tables of a
catalog every link is of this kind, so that a join is inferred just when there is a link at all,
and what a chain of joins leads to renders without parameters and equates declared columns only.
-/

namespace BoundSql

/-- The column is a declared one of a source of the list. -/
def ColumnRef.DeclaredOn (sources : List Source) (c : ColumnRef) : Prop :=
  ∃ s ∈ sources, c.source = some s ∧ s.base.hasColumn c.name = true

namespace Source

theorem sources_toClause (s : Source) : s.toClause.sources = [s] := by cases s <;> rfl

theorem nodes_toClause (s : Source) : s.toClause.nodes = [s.toClause] := by cases s <;> rfl

/-! ### Links -/

theorem mem_linksTo (source target : Source) (l : Link) :
    l ∈ source.linksTo target ↔ ∃ c r, (c, r) ∈ source.base.references ∧
      r.table = target.base.name ∧ l = ⟨target, r.column, source, c.name⟩ := by
  simp only [linksTo, List.mem_map, List.mem_filter, decide_eq_true_eq, Prod.exists]
  constructor
  · rintro ⟨c, r, ⟨he, hname⟩, rfl⟩
    exact ⟨c, r, he, hname, rfl⟩
  · rintro ⟨c, r, he, hname, rfl⟩
    exact ⟨c, r, ⟨he, hname⟩, rfl⟩

namespace Link

def ends (l : Link) : List ColumnRef :=
  [{ name := l.referencedColumn, source := some l.referenced },
    { name := l.referencingColumn, source := some l.referencing }]

def equality (l : Link) : Clause :=
  .binary (.column { name := l.referencedColumn, source := some l.referenced }) .eq
    (.column { name := l.referencingColumn, source := some l.referencing })

def Declared (l : Link) : Prop :=
  l.referenced.base.hasColumn l.referencedColumn = true ∧
    l.referencing.base.hasColumn l.referencingColumn = true

theorem nodes_equality (l : Link) : l.equality.nodes = l.equality :: l.ends.map .column := rfl

theorem condition_of_declared (l : Link) (h : l.Declared) : l.condition = .ok l.equality := by
  rw [condition, Source.column, Source.column, if_pos h.1, if_pos h.2]
  rfl

theorem conditions_of_declared (ls : List Link) (h : ∀ l ∈ ls, l.Declared) :
    ls.mapM condition = .ok (ls.map equality) := by
  induction ls with
  | nil => rfl
  | cons l ls ih =>
    obtain ⟨hl, hls⟩ := List.forall_mem_cons.mp h
    rw [List.mapM_cons, condition_of_declared l hl, ih hls]
    rfl

theorem declaredOn_of_mem_ends (l : Link) (sources : List Source) (h : l.Declared)
    (hreferenced : l.referenced ∈ sources) (hreferencing : l.referencing ∈ sources) :
    ∀ c ∈ l.ends, c.DeclaredOn sources := by
  intro c hc
  rcases List.mem_pair.mp hc with rfl | rfl
  · exact ⟨l.referenced, hreferenced, rfl, h.1⟩
  · exact ⟨l.referencing, hreferencing, rfl, h.2⟩

end Link

end Source

namespace Join

open Source (Link)

theorem mem_links (lefts : List Source) (right : Source) (l : Link) :
    l ∈ links lefts right ↔ ∃ s ∈ lefts, l ∈ right.linksTo s ∨ l ∈ s.linksTo right := by
  simp only [links, List.mem_flatMap, List.mem_append]

/-- A link relates a source on the left and the one on the right. -/
theorem ends_of_mem_links (lefts : List Source) (right : Source) (l : Link)
    (h : l ∈ links lefts right) :
    (l.referenced ∈ lefts ∧ l.referencing = right) ∨
      (l.referenced = right ∧ l.referencing ∈ lefts) := by
  obtain ⟨s, hs, hl | hl⟩ := (mem_links lefts right l).mp h
  · obtain ⟨c, r, _, _, rfl⟩ := (right.mem_linksTo s l).mp hl
    exact Or.inl ⟨hs, rfl⟩
  · obtain ⟨c, r, _, _, rfl⟩ := (s.mem_linksTo right l).mp hl
    exact Or.inr ⟨rfl, hs⟩

theorem sources_of_mem_links (lefts : List Source) (right : Source) (l : Link)
    (h : l ∈ links lefts right) :
    l.referenced ∈ lefts ++ [right] ∧ l.referencing ∈ lefts ++ [right] := by
  rw [List.mem_append, List.mem_append, List.mem_singleton, List.mem_singleton]
  exact (ends_of_mem_links lefts right l h).elim (fun h => ⟨Or.inl h.1, Or.inr h.2⟩)
    fun h => ⟨Or.inr h.1, Or.inl h.2⟩

/-- With all links declared a join is inferred just when there is one. -/
theorem infer_of_declared (left : Clause) (right : Source) (outer : Bool)
    (h : ∀ l ∈ links left.sources right, l.Declared) :
    infer left right outer
      = if links left.sources right = [] then
          .error (.unrelated (left.sources.map Source.name) right.name)
        else .ok ⟨left, right.toClause, onClause ((links left.sources right).map Link.equality),
          outer⟩ := by
  rw [infer, Link.conditions_of_declared _ h]
  by_cases hlinks : links left.sources right = []
  · rw [hlinks]
    rfl
  · have hnonempty : ((links left.sources right).map Link.equality).isEmpty = false := by
      simpa using hlinks
    simp only [bind, Except.bind, hnonempty, Bool.false_eq_true, ite_false, hlinks]
    rfl

theorem infer_eq_ok (left : Clause) (right : Source) (outer : Bool) (j : Join)
    (h : ∀ l ∈ links left.sources right, l.Declared) :
    infer left right outer = .ok j ↔ links left.sources right ≠ [] ∧
      j = ⟨left, right.toClause, onClause ((links left.sources right).map Link.equality),
        outer⟩ := by
  rw [infer_of_declared left right outer h]
  by_cases hlinks : links left.sources right = []
  · simp [hlinks]
  · rw [if_neg hlinks, Except.ok.injEq]
    simp only [ne_eq, hlinks, not_false_eq_true, true_and, eq_comm]

/-! ### ON clauses -/

/-- Equalities need no parentheses, so the members stand as they are. -/
theorem onClause_equalities (ls : List Link) (h : 2 ≤ ls.length) :
    onClause (ls.map Link.equality) = .junction .and (ls.map Link.equality) := by
  have hmembers : (ls.map Link.equality).map Clause.asMember = ls.map Link.equality := by
    rw [List.map_map]
    rfl
  match ls, h with
  | l :: l' :: ls, _ => exact congrArg (Clause.junction .and) hmembers

/-- An ON clause is one equality, or the conjunction of several. -/
theorem mem_nodes_onClause (ls : List Link) (hls : ls ≠ []) (d : Clause)
    (hd : d ∈ (onClause (ls.map Link.equality)).nodes) :
    (∃ c cs, d = .junction .and (c :: cs)) ∨
      ∃ l ∈ ls, d = l.equality ∨ ∃ c ∈ l.ends, d = .column c := by
  have hequality : ∀ l ∈ ls, d ∈ l.equality.nodes →
      ∃ l ∈ ls, d = l.equality ∨ ∃ c ∈ l.ends, d = .column c := by
    intro l hl hdl
    rw [Link.nodes_equality, List.mem_cons, List.mem_map] at hdl
    rcases hdl with rfl | ⟨c, hc, rfl⟩
    · exact ⟨l, hl, Or.inl rfl⟩
    · exact ⟨l, hl, Or.inr ⟨c, hc, rfl⟩⟩
  match ls, hls with
  | [l], _ => exact Or.inr (hequality l (List.mem_cons_self ..) hd)
  | l :: l' :: ls, _ =>
    rw [onClause_equalities _ (by simp), Clause.nodes_eq, List.mem_cons] at hd
    rcases hd with rfl | hd
    · exact Or.inl ⟨_, _, rfl⟩
    · obtain ⟨c, hc, hdc⟩ := List.mem_flatMap.mp hd
      obtain ⟨l₁, hl₁, rfl⟩ := List.mem_map.mp hc
      exact Or.inr (hequality l₁ hl₁ hdc)

theorem ownActs_onClause (q : Quoting) (ls : List Link) (hls : ls ≠ []) (d : Clause)
    (hd : d ∈ (onClause (ls.map Link.equality)).nodes) : d.ownActs q = [] := by
  rcases mem_nodes_onClause ls hls d hd with ⟨c, cs, rfl⟩ | ⟨l, _, rfl | ⟨c, _, rfl⟩⟩
  · rfl
  · rfl
  · rfl

theorem mem_ends_of_column_mem (ls : List Link) (hls : ls ≠ []) (c : ColumnRef)
    (hc : .column c ∈ (onClause (ls.map Link.equality)).nodes) : ∃ l ∈ ls, c ∈ l.ends := by
  rcases mem_nodes_onClause ls hls _ hc with ⟨_, _, he⟩ | ⟨l, hl, he | ⟨c', hc', he⟩⟩
  · cases he
  · cases he
  · cases he
    exact ⟨l, hl, hc'⟩

theorem not_join_mem_onClause (ls : List Link) (hls : ls ≠ []) (left right on : Clause)
    (outer : Bool) : .join left right on outer ∉ (onClause (ls.map Link.equality)).nodes := by
  intro h
  rcases mem_nodes_onClause ls hls _ h with ⟨_, _, he⟩ | ⟨_, _, he | ⟨_, _, he⟩⟩ <;> cases he

end Join

theorem Clause.compile_of_ownActs (q : Quoting) (c : Clause)
    (h : ∀ d ∈ c.nodes, d.ownActs q = []) : ∃ sql, c.compile q = .ok ⟨sql, .empty⟩ := by
  have hacts : Template.acts (c.template q) = [] := by
    rw [acts_nodes]
    exact List.flatMap_eq_nil_iff.mpr h
  obtain ⟨ss, hss⟩ := Template.exists_texts_of_acts _ hacts
  exact ⟨String.join ss, compile_of_texts q c ss hss⟩

namespace Catalog

/-! ### Chains of joins -/

theorem Sound.declared_linksTo {tables : List Table} (h : Sound tables) (source target : Source)
    (hsource : source.base ∈ tables) (htarget : target.base ∈ tables) :
    ∀ l ∈ source.linksTo target, l.Declared := by
  intro l hl
  obtain ⟨c, r, he, hname, rfl⟩ := (source.mem_linksTo target l).mp hl
  exact ⟨h.hasColumn source.base target.base hsource htarget (c, r) he hname,
    source.base.hasColumn_of_mem_references c r he⟩

theorem Sound.declared_links {tables : List Table} (h : Sound tables) (lefts : List Source)
    (right : Source) (hlefts : ∀ s ∈ lefts, s.base ∈ tables) (hright : right.base ∈ tables) :
    ∀ l ∈ Join.links lefts right, l.Declared := by
  intro l hl
  obtain ⟨s, hs, hlink⟩ := (Join.mem_links lefts right l).mp hl
  rcases hlink with hlink | hlink
  · exact h.declared_linksTo right s hright (hlefts s hs) l hlink
  · exact h.declared_linksTo s right (hlefts s hs) hright l hlink

/-- Tables of the catalog and aliases of them, joined one after another. -/
inductive Chained (cat : Catalog) : Clause → Prop
  | source (s : Source) (hs : s.base ∈ cat.tables) : Chained cat s.toClause
  | join (left : Clause) (right : Source) (outer : Bool) (j : Join) (hleft : Chained cat left)
      (hright : right.base ∈ cat.tables) (hj : Join.infer left right outer = .ok j) :
      Chained cat j.toClause

/-- What every step of a chain keeps. -/
structure Clean (cat : Catalog) (d : Clause) : Prop where
  bases : ∀ s ∈ d.sources, s.base ∈ cat.tables
  silent : ∀ q, ∀ e ∈ d.nodes, e.ownActs q = []
  joins : ∀ l r on outer, .join l r on outer ∈ d.nodes →
    l.sources ++ r.sources ⊆ d.sources ∧
      ∀ c, .column c ∈ on.nodes → c.DeclaredOn (l.sources ++ r.sources)

theorem clean_source (cat : Catalog) (s : Source) (hs : s.base ∈ cat.tables) :
    cat.Clean s.toClause where
  bases := by
    rw [s.sources_toClause]
    simpa using hs
  silent := by
    rw [s.nodes_toClause]
    intro q e he
    rw [List.mem_singleton.mp he]
    cases s <;> rfl
  joins := by
    rw [s.nodes_toClause]
    intro l r on outer hmem
    cases s <;> cases List.mem_singleton.mp hmem

theorem Clean.join {cat : Catalog} {left : Clause} (hleft : cat.Clean left)
    (hsound : Sound cat.tables) (right : Source) (outer : Bool) (j : Join)
    (hright : right.base ∈ cat.tables) (hj : Join.infer left right outer = .ok j) :
    cat.Clean j.toClause := by
  have hdeclared := hsound.declared_links left.sources right hleft.bases hright
  obtain ⟨hlinks, rfl⟩ := (Join.infer_eq_ok left right outer j hdeclared).mp hj
  have hsource := cat.clean_source right hright
  constructor
  · intro s hs
    rw [Join.toClause, Clause.sources, List.mem_append] at hs
    rcases hs with hs | hs
    · exact hleft.bases s hs
    · exact hsource.bases s hs
  · intro q e he
    rw [Join.toClause, Clause.nodes, List.mem_cons, List.mem_append, List.mem_append] at he
    rcases he with rfl | (he | he) | he
    · rfl
    · exact hleft.silent q e he
    · exact hsource.silent q e he
    · exact Join.ownActs_onClause q _ hlinks e he
  · intro l r on outer' hmem
    rw [Join.toClause, Clause.sources]
    rw [Join.toClause, Clause.nodes, List.mem_cons, List.mem_append, List.mem_append] at hmem
    rcases hmem with he | (hmem | hmem) | hmem
    · -- The new join itself: its columns are the ends of links between the two sides.
      cases he
      refine ⟨List.Subset.refl _, fun c hc => ?_⟩
      obtain ⟨link, hlink, hend⟩ := Join.mem_ends_of_column_mem _ hlinks c hc
      obtain ⟨hreferenced, hreferencing⟩ := Join.sources_of_mem_links left.sources right link hlink
      rw [right.sources_toClause]
      exact link.declaredOn_of_mem_ends _ (hdeclared link hlink) hreferenced hreferencing c hend
    · obtain ⟨hsubset, hcolumns⟩ := hleft.joins l r on outer' hmem
      exact ⟨List.Subset.trans hsubset (List.subset_append_left ..), hcolumns⟩
    · obtain ⟨hsubset, hcolumns⟩ := hsource.joins l r on outer' hmem
      exact ⟨List.Subset.trans hsubset (List.subset_append_right ..), hcolumns⟩
    · exact absurd hmem (Join.not_join_mem_onClause _ hlinks l r on outer')

theorem Chained.clean {cat : Catalog} {d : Clause} (h : cat.Chained d) (hsound : Sound cat.tables) :
    cat.Clean d := by
  induction h with
  | source s hs => exact cat.clean_source s hs
  | join left right outer j _ hright hj ih => exact ih.join hsound right outer j hright hj

/--
Tables of a catalog and aliases of them join cleanly. A step of a chain of joins, inner or outer,
succeeds or finds no reference between the two sides, and nothing else; what a chain leads to
renders without parameters; and each column of an ON clause is a declared one of a table or alias
that takes part in the join.
-/
theorem joins_cleanly (tables : List Table) (cat : Catalog) (h : declare tables = .ok cat)
    (d : Clause) (hd : cat.Chained d) :
    (∀ (right : Source) (outer : Bool), right.base ∈ cat.tables →
      (∃ j, Join.infer d right outer = .ok j) ∨
        Join.infer d right outer
          = .error (.unrelated (d.sources.map Source.name) right.name)) ∧
    (∀ q, ∃ sql, d.compile q = .ok ⟨sql, .empty⟩) ∧
    ∀ l r on outer, .join l r on outer ∈ d.nodes →
      l.sources ++ r.sources ⊆ d.sources ∧
        ∀ c, .column c ∈ on.nodes → c.DeclaredOn (l.sources ++ r.sources) := by
  obtain ⟨rfl, hsound⟩ := (declare_eq_ok tables cat).mp h
  have hclean := hd.clean hsound
  refine ⟨fun right outer hright => ?_, fun q => d.compile_of_ownActs q (hclean.silent q),
    hclean.joins⟩
  have hdeclared := hsound.declared_links d.sources right hclean.bases hright
  rw [Join.infer_of_declared d right outer hdeclared]
  by_cases hlinks : Join.links d.sources right = []
  · exact Or.inr (if_pos hlinks)
  · exact Or.inl ⟨_, if_neg hlinks⟩

/-- People, each with the one who is their boss. -/
def people : Table :=
  ⟨"people", [⟨"id", .integer, {}⟩, ⟨"boss", .integer, { reference := some ⟨"people", "id"⟩ }⟩]⟩

def houses : Table := ⟨"houses", [⟨"owner", .integer, { reference := some ⟨"people", "id"⟩ }⟩]⟩

def boss : Source := .aliased ⟨people, "boss"⟩

def ownedHouses : Join :=
  ⟨.table houses, .table people,
    Source.Link.equality ⟨.table people, "id", .table houses, "owner"⟩, false⟩

/-- The owners and people again, who may be related to a house and an owner in three ways. -/
def bossesOfOwners : Join :=
  ⟨ownedHouses.toClause, boss.toClause,
    .junction .and ([⟨boss, "id", .table houses, "owner"⟩, ⟨.table people, "id", boss, "boss"⟩,
      ⟨boss, "id", .table people, "boss"⟩].map Source.Link.equality), true⟩

theorem joins_cleanly_bossesOfOwners :
    declare [people, houses] = .ok ⟨[people, houses]⟩ ∧
      Chained ⟨[people, houses]⟩ bossesOfOwners.toClause ∧
      bossesOfOwners.toClause.compile .plain = .ok
        ⟨"houses JOIN people ON people.id = houses.owner LEFT OUTER JOIN people AS boss "
          ++ "ON boss.id = houses.owner AND people.id = boss.boss AND boss.id = people.boss",
        .empty⟩ ∧
      (∀ c, .column c ∈ ownedHouses.on.nodes →
        c.DeclaredOn [.table houses, .table people]) ∧
      ∀ c, .column c ∈ bossesOfOwners.on.nodes →
        c.DeclaredOn [.table houses, .table people, boss] := by
  have hdeclare : declare [people, houses] = .ok ⟨[people, houses]⟩ := rfl
  have hpeople : people ∈ [people, houses] := by simp
  have hhouses : houses ∈ [people, houses] := by simp
  have howned : Chained ⟨[people, houses]⟩ ownedHouses.toClause :=
    .join _ (.table people) false ownedHouses (.source (.table houses) hhouses) hpeople rfl
  have hbosses : Chained ⟨[people, houses]⟩ bossesOfOwners.toClause :=
    .join _ boss true bossesOfOwners howned hpeople rfl
  obtain ⟨_, hcompile, hjoins⟩ := joins_cleanly _ _ hdeclare _ hbosses
  obtain ⟨sql, hsql⟩ := hcompile .plain
  have htext : (bossesOfOwners.toClause.compile .plain).toOption.map Statement.sql = some
      ("houses JOIN people ON people.id = houses.owner LEFT OUTER JOIN people AS boss "
        ++ "ON boss.id = houses.owner AND people.id = boss.boss AND boss.id = people.boss") := by
    decide +kernel
  rw [hsql] at htext
  obtain rfl := Option.some.inj htext
  have hinner : ownedHouses.toClause ∈ bossesOfOwners.toClause.nodes := by
    simp [bossesOfOwners, Join.toClause, Clause.nodes, ownedHouses]
  exact ⟨hdeclare, hbosses, hsql, (hjoins _ _ _ _ hinner).2,
    (hjoins _ _ _ _ (Clause.self_mem_nodes _)).2⟩

end Catalog

end BoundSql
