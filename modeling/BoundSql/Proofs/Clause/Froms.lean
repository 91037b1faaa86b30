import BoundSql.Proofs.Clause.Nodes
import BoundSql.Proofs.Clause.Owners
import BoundSql.Proofs.Clause.Placeholders

/-!
# Selecting items

A SELECT of some items selects from the joins and the bare table names among them. Only where there
is none it selects from the owners of its columns, and then each owner is named once. Where there is
one, the owners of other columns are not added to the list.
-/

namespace BoundSql

def Owner.hasNaN : Owner → Bool
  | source s => s.base.hasNaN
  | named _ => false

/-- What is no join in a tree, from left to right. -/
def Joins.Tree.sources {α : Type} : Joins.Tree α → List α
  | .source a => [a]
  | .join l r _ _ => sources l ++ sources r

namespace Clause

theorem same_owner_self (o : Owner) : o.toClause.same o.toClause = !o.hasNaN := by
  cases o with
  | source s => exact same_toClause s
  | named name => exact decide_eq_true rfl

/-! ### Columns of expressions -/

def isExpressionNode : Clause → Bool
  | column _ => true
  | binary .. => true
  | unary .. => true
  | junction .. => true
  | group _ => true
  | sequence .. => true
  | bind .. => true
  | null => true
  | _ => false

/-- No source, no join and no statement stands in the clause. -/
def IsExpression (c : Clause) : Prop := ∀ d ∈ c.nodes, d.isExpressionNode = true

theorem columnRefs_of_node (c : Clause) (h : c.isExpressionNode = true) :
    columnRefs c = c.column?.toList ++ c.children.flatMap columnRefs := by
  cases c with
  | join => cases h
  | select => cases h
  | insert => cases h
  | update => cases h
  | delete => cases h
  | _ => simp [columnRefs, column?, children, columnRefsOfAll_eq_flatMap]

theorem mem_columnRefs (c : Clause) (r : ColumnRef) (hc : c.IsExpression)
    (hr : .column r ∈ c.nodes) : r ∈ columnRefs c := by
  induction c using induct_children with
  | step c ih =>
    obtain ⟨hnode, hchildren⟩ := (forall_nodes _ c).mp hc
    rw [columnRefs_of_node c hnode, List.mem_append]
    rw [nodes_eq, List.mem_cons] at hr
    rcases hr with rfl | hr
    · exact Or.inl (by simp [column?])
    · obtain ⟨d, hd, hrd⟩ := List.mem_flatMap.mp hr
      exact Or.inr (List.mem_flatMap.mpr ⟨d, hd, ih d hd (hchildren d hd) hrd⟩)

/-- The owner qualifies a column of the clause. -/
def Qualifies (o : Owner) (c : Clause) : Prop :=
  ∃ r, .column r ∈ c.nodes ∧ Owner.ofColumn? r = some o

theorem mem_columnOwners (columns : List Clause) (o : Owner) :
    o ∈ columnOwners columns ↔ ∃ c ∈ columns, ∃ r ∈ columnRefs c, Owner.ofColumn? r = some o := by
  simp only [columnOwners, List.mem_filterMap, columnRefsOfAll_eq_flatMap, List.mem_flatMap]
  constructor
  · rintro ⟨r, ⟨c, hc, hr⟩, ho⟩
    exact ⟨c, hc, r, hr, ho⟩
  · rintro ⟨c, hc, r, hr, ho⟩
    exact ⟨r, ⟨c, hc, hr⟩, ho⟩

/-! ### Texts of entries -/

/-- The text is that of the owner, if the clause is an owner or the same as one. -/
def HasOwnerText (q : Quoting) (c : Clause) (text : String) : Prop :=
  ∀ o : Owner, c = o.toClause ∨ c.same o.toClause = true → text = ownerText q o

/-- The leaves of a clause are the sources of the tree that it is rendered as. -/
theorem sources_of_renders (q : Quoting) (b b' : Binder) (c : Clause) (t : Joins.Tree String)
    (h : Renders q b c t b') : List.Forall₂ (HasOwnerText q) c.leaves t.sources := by
  induction h with
  | source b b' c texts hc hfill =>
    rw [leaves_of_not_join c hc]
    refine .cons (fun o ho => ?_) .nil
    rw [template_of_owner q c o ho] at hfill
    obtain ⟨rfl, _⟩ := Prod.mk.inj (Except.ok.inj hfill)
    simp
  | join b b₁ b₂ b' l r on tl tr texts outer hl hr hon ihl ihr => exact List.rel_append ihl ihr

theorem sources_of_renders_all (q : Quoting) (cs : List Clause) (trees : List (Joins.Tree String))
    (h : List.Forall₂ (fun c t => ∃ b b', Renders q b c t b') cs trees) :
    List.Forall₂ (HasOwnerText q) (cs.flatMap leaves) (trees.flatMap Joins.Tree.sources) := by
  refine List.rel_flatMap h fun c t ht => ?_
  obtain ⟨b, b', hrenders⟩ := ht
  exact sources_of_renders q b b' c t hrenders

/-- A text that stands for each element with a property is found as often as there are such elements
just if it stands for no other element. -/
theorem count_of_forall₂ {α : Type} (holds : α → Bool) (text : String) (xs : List α)
    (texts : List String)
    (h : List.Forall₂ (fun x t => holds x = true → t = text) xs texts) :
    xs.countP holds ≤ texts.count text ∧
      (texts.count text = xs.countP holds ↔
        ∀ e ∈ xs.zip texts, e.2 = text → holds e.1 = true) := by
  induction h with
  | nil => simp
  | @cons x t xs texts ht _ ih =>
    obtain ⟨hle, hiff⟩ := ih
    rw [List.zip_cons_cons, List.forall_mem_cons, ← hiff, List.countP_cons, List.count_cons]
    cases hx : holds x with
    | true =>
      obtain rfl := ht hx
      simp [hle]
    | false =>
      by_cases htext : t = text
      · simp only [htext, beq_self_eq_true, if_true, Bool.false_eq_true, if_false, forall_const,
          false_and, iff_false]
        omega
      · simp [htext, hle]

/-- A list of clauses is rendered as the texts of their trees. -/
theorem renders_of_fill_join (q : Quoting) (b b' : Binder) (cs : List Clause) (texts : List String)
    (h : Template.fill b (Template.join ", " (cs.map (template q))) = .ok (texts, b')) :
    ∃ trees : List (Joins.Tree String),
      List.Forall₂ (fun c t => ∃ b b', Renders q b c t b') cs trees ∧
        String.join texts = ", ".intercalate (trees.map Joins.Tree.text) := by
  induction cs generalizing b texts with
  | nil =>
    obtain ⟨rfl, _⟩ := Prod.mk.inj (Except.ok.inj h)
    exact ⟨[], .nil, rfl⟩
  | cons c cs ih =>
    cases cs with
    | nil =>
      obtain ⟨t, ht, htext⟩ := renders_of_fill q b b' c texts h
      exact ⟨[t], .cons ⟨b, b', ht⟩ .nil, by rw [htext]; simp⟩
    | cons d cs =>
      obtain ⟨first, b₁, rest, hfirst, hrest, rfl⟩ :=
        Template.fill_around_ok b b' (c.template q) _ ", " texts h
      obtain ⟨t, ht, htext⟩ := renders_of_fill q b b₁ c first hfirst
      obtain ⟨trees, htrees, htexts⟩ := ih b₁ rest hrest
      refine ⟨t :: trees, .cons ⟨b, b₁, ht⟩ htrees, ?_⟩
      cases htrees with
      | cons hd htail =>
        rw [String.join_append, String.join_cons, htext, htexts, List.map_cons, List.map_cons,
          List.map_cons, String.intercalate_cons_cons, String.append_assoc]

/-- The text of a list to select from. -/
def fromListText (trees : List (Joins.Tree String)) : String :=
  if trees.isEmpty then "" else " FROM " ++ ", ".intercalate (trees.map Joins.Tree.text)

theorem renders_of_fill_from (q : Quoting) (b b' : Binder) (cs : List Clause) (texts : List String)
    (h : Template.fill b (fromTemplate (cs.map (template q))) = .ok (texts, b')) :
    ∃ trees : List (Joins.Tree String),
      List.Forall₂ (fun c t => ∃ b b', Renders q b c t b') cs trees ∧
        String.join texts = fromListText trees := by
  unfold fromTemplate at h
  split at h
  · next hempty =>
    obtain ⟨rfl, _⟩ := Prod.mk.inj (Except.ok.inj h)
    obtain rfl : cs = [] := by simpa using hempty
    exact ⟨[], .nil, rfl⟩
  · next hsome =>
    obtain ⟨first, rest, hfirst, hrest, he⟩ := Template.fill_cons_ok b _ _ _ h
    obtain rfl := Except.ok.inj hfirst
    obtain ⟨rfl, rfl⟩ := Prod.mk.inj he
    obtain ⟨trees, htrees, htexts⟩ := renders_of_fill_join q b _ cs rest.1 hrest
    refine ⟨trees, htrees, ?_⟩
    have htrees' : trees.isEmpty = false := by
      cases htrees with
      | nil => exact absurd rfl hsome
      | cons _ _ => rfl
    rw [String.join_cons, htexts, fromListText, htrees', if_neg Bool.false_ne_true]

/-- The clause becomes an entry of the list to select from when it is selected. -/
def isEntry : Clause → Bool
  | join .. => true
  | named _ => true
  | _ => false

end Clause

namespace Select

open Clause

/-! ### The SELECT of some items -/

theorem column_froms (x : Select) (c : Clause) :
    (x.column c).froms = if c.isEntry then addNew x.froms c else x.froms := by
  cases c <;> rfl

theorem ofItems_froms (items : List Clause) :
    (ofItems items).froms = unrepeated (items.filter isEntry) := by
  have hfold : ∀ x : Select,
      (items.foldl column x).froms = (items.filter isEntry).foldl addNew x.froms := by
    induction items with
    | nil => exact fun x => rfl
    | cons c items ih =>
      intro x
      rw [List.foldl_cons, ih, column_froms, List.filter_cons]
      cases c.isEntry <;> rfl
  exact hfold {}

/-- Selecting items gives columns and entries, and nothing else. -/
theorem ofItems_eq (items : List Clause) :
    ofItems items = { columns := (ofItems items).columns, froms := (ofItems items).froms } := by
  -- No step of the fold leaves this form, whatever select it starts from.
  have hfold : ∀ x : Select, x = { columns := x.columns, froms := x.froms } →
      items.foldl column x
        = { columns := (items.foldl column x).columns, froms := (items.foldl column x).froms } := by
    induction items with
    | nil => exact fun x hx => hx
    | cons c items ih =>
      intro x hx
      refine ih _ ?_
      rw [hx]
      cases c <;> rfl
  exact hfold {} rfl

theorem effectiveFroms_of_entry (items : List Clause) (h : ∃ c ∈ items, c.isEntry = true) :
    (ofItems items).effectiveFroms = unrepeated (items.filter isEntry) := by
  obtain ⟨c, hc, hentry⟩ := h
  obtain ⟨d, hd, _⟩ := exists_mem_unrepeated _ c (List.mem_filter.mpr ⟨hc, hentry⟩)
  have hsome : (unrepeated (items.filter isEntry)).isEmpty = false :=
    List.isEmpty_eq_false_iff.mpr (List.ne_nil_of_mem hd)
  rw [effectiveFroms, ofItems_froms, hsome]
  rfl

theorem effectiveFroms_of_none (items : List Clause) (h : ∀ c ∈ items, c.isEntry = false) :
    (ofItems items).effectiveFroms
      = (ownersOf (ofItems items).columns).map Owner.toClause := by
  have hnone : items.filter isEntry = [] :=
    List.filter_eq_nil_iff.mpr fun c hc => by simp [h c hc]
  rw [effectiveFroms, ofItems_froms, hnone]
  rfl

theorem fromsTemplate_eq (q : Quoting) (x : Select) :
    fromsTemplate q x.columns x.froms = fromTemplate (x.effectiveFroms.map (template q)) := by
  unfold fromsTemplate effectiveFroms
  split
  · rw [List.map_map]
    exact congrArg fromTemplate
      (List.map_congr_left fun o _ => (template_of_owner q _ o (Or.inl rfl)).symm)
  · rfl

/-- The text of the SELECT of some items: its columns, and then the list it selects from. -/
theorem compile_ofItems (q : Quoting) (items : List Clause) (st : Statement)
    (h : (ofItems items).toClause.compile q = .ok st) :
    ∃ columns b trees,
      Template.fill {} (columnsTemplate q (ofItems items).columns) = .ok (columns, b) ∧
      List.Forall₂ (fun c t => ∃ b b', Renders q b c t b') (ofItems items).effectiveFroms trees ∧
      st.sql = "SELECT " ++ String.join columns ++ fromListText trees := by
  obtain ⟨texts, b, hfill, hsql, _⟩ := compile_ok q _ st h
  have htemplate : (ofItems items).toClause.template q
      = .text "SELECT " :: (columnsTemplate q (ofItems items).columns
        ++ (fromTemplate ((ofItems items).effectiveFroms.map (template q)) ++ [.text ""])) := by
    rw [← fromsTemplate_eq, ofItems_eq, toClause, template_select]
    simp only [whereTemplate, orderTemplate, List.append_nil, List.cons_append, List.append_assoc]
    rfl
  rw [htemplate] at hfill
  obtain ⟨head, rest, hhead, hrest, he⟩ := Template.fill_cons_ok _ _ _ _ hfill
  obtain rfl := Except.ok.inj hhead
  obtain ⟨rfl, rfl⟩ := Prod.mk.inj he
  obtain ⟨columns, b₁, behind, hcolumns, hbehind, hsplit⟩ :=
    Template.fill_append_ok _ _ _ _ rest.1 hrest
  obtain ⟨froms, b₂, last, hfroms, hlast, rfl⟩ := Template.fill_append_ok _ _ _ _ behind hbehind
  obtain ⟨trees, htrees, htext⟩ := renders_of_fill_from q b₁ b₂ _ froms hfroms
  obtain ⟨rfl, _⟩ := Prod.mk.inj (Except.ok.inj hlast)
  refine ⟨columns, b₁, trees, hcolumns, htrees, ?_⟩
  rw [hsql, hsplit, String.join_cons, String.join_append, String.join_append, htext]
  simp [String.append_assoc]

/-! ### Owners in the list -/

theorem timesNamed_effectiveFroms_of_none (items : List Clause) (o : Owner) (c : Clause)
    (hnone : ∀ c ∈ items, c.isEntry = false) (hc : c ∈ (ofItems items).columns)
    (hexpression : c.IsExpression) (ho : Qualifies o c) (hnan : o.hasNaN = false) :
    timesNamed o (ofItems items).effectiveFroms = 1 := by
  obtain ⟨r, hr, howner⟩ := ho
  rw [effectiveFroms_of_none items hnone]
  have hself : o.toClause.same o.toClause = true := by
    rw [same_owner_self, hnan]
    rfl
  refine timesNamed_ownersOf _ o ((mem_columnOwners _ o).mpr ?_) hself
  exact ⟨c, hc, r, mem_columnRefs c r hexpression hr, howner⟩

theorem exists_owner_of_mem (items : List Clause) (hnone : ∀ c ∈ items, c.isEntry = false)
    (e : Clause) (he : e ∈ (ofItems items).effectiveFroms) :
    ∃ o : Owner, e = o.toClause ∧ ∃ c ∈ (ofItems items).columns, Qualifies o c := by
  rw [effectiveFroms_of_none items hnone] at he
  obtain ⟨o, ho, rfl⟩ := List.mem_map.mp he
  obtain ⟨c, hc, r, hr, howner⟩ := (mem_columnOwners _ o).mp (ownersOf_subset _ ho)
  exact ⟨o, rfl, c, hc, r, column_mem_nodes c r hr, howner⟩

theorem timesNamed_pos_of_mem_sources (c : Clause) (s : Source) (hs : s ∈ c.sources)
    (hnan : s.base.hasNaN = false) : 0 < timesNamed (.source s) [c] := by
  rw [timesNamed, List.flatMap_singleton, List.countP_pos_iff]
  refine ⟨s.toClause, mem_leaves_of_mem_sources c s hs, ?_⟩
  have hself : s.toClause.same s.toClause = !s.base.hasNaN := same_toClause s
  rw [hnan] at hself
  exact hself

/-- Without an entry the texts of the list are those of the owners. -/
theorem texts_of_none (q : Quoting) (items : List Clause) (texts : List String)
    (hnone : ∀ c ∈ items, c.isEntry = false)
    (h : List.Forall₂ (HasOwnerText q) ((ofItems items).effectiveFroms.flatMap leaves) texts) :
    texts = (ownersOf (ofItems items).columns).map (ownerText q) := by
  rw [effectiveFroms_of_none items hnone, leaves_owners, List.forall₂_map_left_iff] at h
  have heq : List.Forall₂ (fun o text => ownerText q o = text) _ texts :=
    h.imp fun o text htext => (htext o (Or.inl rfl)).symm
  rwa [← List.forall₂_map_left_iff, List.forall₂_eq_eq_eq, eq_comm] at heq

/-- An owner that is named once has its text there once just if no owner of a column with another
definition has that text. -/
theorem count_ownersOf (q : Quoting) (columns : List Clause) (o : Owner)
    (hone : timesNamed o ((ownersOf columns).map Owner.toClause) = 1) :
    ((ownersOf columns).map (ownerText q)).count (ownerText q o) = 1 ↔
      ∀ p ∈ columnOwners columns, ownerText q p = ownerText q o →
        p.toClause.same o.toClause = true := by
  have htexts : List.Forall₂ (fun c text => c.same o.toClause = true → text = ownerText q o)
      ((ownersOf columns).map Owner.toClause) ((ownersOf columns).map (ownerText q)) := by
    rw [List.forall₂_map_left_iff, List.forall₂_map_right_iff, List.forall₂_same]
    exact fun p _ hsame => ownerText_eq q p o (Or.inr hsame)
  obtain ⟨_, hcount⟩ := count_of_forall₂ (same · o.toClause) _ _ _ htexts
  rw [timesNamed, leaves_owners] at hone
  rw [← hone, hcount, List.zip_map', List.forall_mem_map]
  constructor
  · intro halike p hp htext
    obtain ⟨r, hr, hrp⟩ := exists_mem_ownersOf columns p hp
    have hsame := halike r hr ((ownerText_eq q r p hrp).trans htext)
    rcases hrp with heq | hrp
    · exact heq ▸ hsame
    · exact same_owner_congr _ _ o hrp ▸ hsame
  · exact fun halike p hp => halike p (ownersOf_subset columns hp)

/--
What the SELECT of some items selects from. Its text is the columns and then the texts of the
entries of the list. An owner has its text at each leaf that names it, and nowhere else just if no
other leaf is rendered alike. If no item is a join or a bare table name, each owner of a column is
named once, as an entry, and nothing else is; its text is there once just if no owner of a column
with another definition has that text. If some item is, the entries are these items without
repetitions: an owner is named if and only if it is a leaf of such an item, as the sources of a join
are, and it is named once if it is one leaf of one of them and all that have it as a leaf are the
same.
-/
theorem compile_ofItems_names_owners (items : List Clause) :
    let x := ofItems items
    (∀ q st, x.toClause.compile q = .ok st →
      ∃ columns b trees, Template.fill {} (columnsTemplate q x.columns) = .ok (columns, b) ∧
        List.Forall₂ (fun c t => ∃ b b', Renders q b c t b') x.effectiveFroms trees ∧
        st.sql = "SELECT " ++ String.join columns ++ fromListText trees ∧
        let ends := x.effectiveFroms.flatMap leaves
        let texts := trees.flatMap Joins.Tree.sources
        List.Forall₂ (HasOwnerText q) ends texts ∧
        (∀ o, timesNamed o x.effectiveFroms ≤ texts.count (ownerText q o) ∧
          (texts.count (ownerText q o) = timesNamed o x.effectiveFroms ↔
            ∀ e ∈ ends.zip texts, e.2 = ownerText q o → e.1.same o.toClause = true)) ∧
        ((∀ c ∈ items, c.isEntry = false) →
          texts = (ownersOf x.columns).map (ownerText q) ∧
          ∀ o, ∀ c ∈ x.columns, c.IsExpression → Qualifies o c → o.hasNaN = false →
            (texts.count (ownerText q o) = 1 ↔
              ∀ p ∈ columnOwners x.columns, ownerText q p = ownerText q o →
                p.toClause.same o.toClause = true))) ∧
    ((∀ c ∈ items, c.isEntry = false) →
      (∀ o, ∀ c ∈ x.columns, c.IsExpression → Qualifies o c → o.hasNaN = false →
        timesNamed o x.effectiveFroms = 1) ∧
      ∀ e ∈ x.effectiveFroms, ∃ o : Owner, e = o.toClause ∧ ∃ c ∈ x.columns, Qualifies o c) ∧
    ((∃ c ∈ items, c.isEntry = true) →
      x.effectiveFroms = unrepeated (items.filter isEntry) ∧
      (∀ o, 0 < timesNamed o x.effectiveFroms ↔
        ∃ c ∈ items, c.isEntry = true ∧ 0 < timesNamed o [c]) ∧
      (∀ c ∈ items, c.isEntry = true → ∀ s ∈ c.sources, s.base.hasNaN = false →
        0 < timesNamed (.source s) x.effectiveFroms) ∧
      ∀ o, ∀ c ∈ items, c.isEntry = true → timesNamed o [c] = 1 →
        (∀ d ∈ items, ∀ e ∈ items, d.isEntry = true → e.isEntry = true →
          0 < timesNamed o [d] → 0 < timesNamed o [e] → d.same e = true) →
        timesNamed o x.effectiveFroms = 1) := by
  intro x
  refine ⟨fun q st h => ?_, fun hnone => ⟨?_, exists_owner_of_mem items hnone⟩, fun hsome => ?_⟩
  · obtain ⟨columns, b, trees, hcolumns, htrees, hsql⟩ := compile_ofItems q items st h
    have hleaves := sources_of_renders_all q _ trees htrees
    refine ⟨columns, b, trees, hcolumns, htrees, hsql, hleaves, fun o => ?_, fun hnone => ?_⟩
    · exact count_of_forall₂ _ _ _ _ (hleaves.imp fun c text htext hsame => htext o (Or.inr hsame))
    · have htexts := texts_of_none q items _ hnone hleaves
      refine ⟨htexts, fun o c hc hexpression ho hnan => ?_⟩
      rw [htexts]
      refine count_ownersOf q x.columns o ?_
      rw [← effectiveFroms_of_none items hnone]
      exact timesNamed_effectiveFroms_of_none items o c hnone hc hexpression ho hnan
  · exact fun o c hc => timesNamed_effectiveFroms_of_none items o c hnone hc
  · have hentries := effectiveFroms_of_entry items hsome
    have hpos : ∀ o, 0 < timesNamed o x.effectiveFroms ↔
        ∃ c ∈ items, c.isEntry = true ∧ 0 < timesNamed o [c] := by
      intro o
      rw [hentries, timesNamed_unrepeated_pos_iff, timesNamed_pos_iff]
      simp only [List.mem_filter, and_assoc]
    refine ⟨hentries, hpos, fun c hc hentry s hs hnan => ?_, fun o c hc hentry hone hsame => ?_⟩
    · exact (hpos _).mpr ⟨c, hc, hentry, timesNamed_pos_of_mem_sources c s hs hnan⟩
    · rw [hentries, ← hone]
      refine timesNamed_unrepeated o _ c (List.mem_filter.mpr ⟨hc, hentry⟩) (by omega) ?_
      intro d hd e he
      obtain ⟨hd, hdentry⟩ := List.mem_filter.mp hd
      obtain ⟨he, heentry⟩ := List.mem_filter.mp he
      exact hsame d hd e he hdentry heentry

def users : Table := ⟨"users", [⟨"id", .integer, {}⟩]⟩

def userId : Clause := .column { name := "id", source := some (.table users) }

/-- A user is the one of a table of which only the name is known. -/
def isUserOf (table : String) : Clause :=
  .binary userId .eq (.column { name := "user", qualifier := some table })

theorem isExpression_isUserOf (table : String) : (isUserOf table).IsExpression := by
  simp [IsExpression, isUserOf, userId, nodes, isExpressionNode]

theorem qualifies_isUserOf (table : String) :
    Qualifies (.source (.table users)) (isUserOf table) ∧
      Qualifies (.named table) (isUserOf table) :=
  ⟨⟨{ name := "id", source := some (.table users) }, by simp [isUserOf, userId, nodes], rfl⟩,
    ⟨{ name := "user", qualifier := some table }, by simp [isUserOf, userId, nodes], rfl⟩⟩

/-- Users with scores, each as an owner; and users with logs, joined and then selected again. -/
theorem compile_ofItems_names_owners_users :
    let scored := [Clause.table users, isUserOf "scores"]
    let logged := [Clause.join (.table users) (.named "logs") (isUserOf "logs") false, .table users]
    let scoredText := "SELECT users.id, users.id = scores.user FROM users, scores"
    let loggedText := "SELECT users.id, users.id FROM users JOIN logs ON users.id = logs.user"
    (ofItems scored).toClause.compile .plain = .ok ⟨scoredText, .empty⟩ ∧
      timesNamed (.source (.table users)) (ofItems scored).effectiveFroms = 1 ∧
      timesNamed (.named "scores") (ofItems scored).effectiveFroms = 1 ∧
      (∃ columns trees, scoredText = "SELECT " ++ columns ++ fromListText trees ∧
        (trees.flatMap Joins.Tree.sources).count "users" = 1) ∧
      (ofItems logged).toClause.compile .plain = .ok ⟨loggedText, .empty⟩ ∧
      timesNamed (.source (.table users)) (ofItems logged).effectiveFroms = 1 ∧
      ∃ columns trees, loggedText = "SELECT " ++ columns ++ fromListText trees ∧
        1 ≤ (trees.flatMap Joins.Tree.sources).count "users" := by
  intro scored logged scoredText loggedText
  have hscored : (ofItems scored).toClause.compile .plain = .ok ⟨scoredText, .empty⟩ := by rfl
  have hlogged : (ofItems logged).toClause.compile .plain = .ok ⟨loggedText, .empty⟩ := by rfl
  obtain ⟨hscoredTexts, hnone, _⟩ := compile_ofItems_names_owners scored
  obtain ⟨hloggedTexts, _, hsome⟩ := compile_ofItems_names_owners logged
  obtain ⟨honce, _⟩ := hnone (by decide)
  obtain ⟨_, _, _, hjoined⟩ := hsome ⟨_, List.mem_cons_self, rfl⟩
  have hcolumns : isUserOf "scores" ∈ (ofItems scored).columns := by
    simp [scored, ofItems, column, addColumns, isUserOf]
  have hexpression := isExpression_isUserOf "scores"
  obtain ⟨husers, hscores⟩ := qualifies_isUserOf "scores"
  have hone : timesNamed (.source (.table users)) (ofItems logged).effectiveFroms = 1 := by
    refine hjoined _ _ List.mem_cons_self rfl (by decide) fun d hd e he hdentry heentry _ _ => ?_
    have hjoin : ∀ d ∈ logged, d.isEntry = true →
        d = .join (.table users) (.named "logs") (isUserOf "logs") false := by
      simp [logged, isEntry]
    rw [hjoin d hd hdentry, hjoin e he heentry]
    decide
  refine ⟨hscored, honce _ _ hcolumns hexpression husers rfl,
    honce _ _ hcolumns hexpression hscores rfl, ?_, hlogged, hone, ?_⟩
  · obtain ⟨columns, _, trees, _, _, hsql, _, _, howners⟩ := hscoredTexts .plain _ hscored
    obtain ⟨_, hcount⟩ := howners (by decide)
    exact ⟨_, trees, hsql, (hcount _ _ hcolumns hexpression husers rfl).mpr (by decide)⟩
  · obtain ⟨columns, _, trees, _, _, hsql, _, hcount, _⟩ := hloggedTexts .plain _ hlogged
    exact ⟨_, trees, hsql, hone ▸ (hcount (.source (.table users))).1⟩

/-- A bare table name keeps the owner of a column out of the list, and owners of one name with two
definitions both stand in it. -/
theorem compile_ofItems_logs :
    let logs := ofItems [.named "logs", .table users]
    let namesakes := ofItems [.table users, isUserOf "users"]
    (userId ∈ logs.columns ∧ userId.IsExpression ∧ Qualifies (.source (.table users)) userId ∧
      timesNamed (.source (.table users)) logs.effectiveFroms = 0 ∧
      logs.toClause.compile .plain = .ok ⟨"SELECT users.id FROM logs", .empty⟩) ∧
    isUserOf "users" ∈ namesakes.columns ∧ (isUserOf "users").IsExpression ∧
      Qualifies (.source (.table users)) (isUserOf "users") ∧
      namesakes.toClause.compile .plain
        = .ok ⟨"SELECT users.id, users.id = users.user FROM users, users", .empty⟩ := by
  intro logs namesakes
  have hnodes : userId.nodes = [userId] := rfl
  have howner : Qualifies (.source (.table users)) userId :=
    ⟨{ name := "id", source := some (.table users) }, List.mem_singleton_self _, rfl⟩
  have hexpression : userId.IsExpression := by
    rw [IsExpression, hnodes]
    simp [userId, isExpressionNode]
  have hcolumn : isUserOf "users" ∈ namesakes.columns := by
    simp [namesakes, ofItems, column, addColumns, isUserOf]
  exact ⟨⟨List.mem_singleton_self _, hexpression, howner, by decide, by rfl⟩, hcolumn,
    isExpression_isUserOf "users", (qualifies_isUserOf "users").1, by rfl⟩

end Select

end BoundSql
