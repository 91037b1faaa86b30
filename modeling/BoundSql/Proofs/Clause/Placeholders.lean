import BoundSql.Proofs.Clause.Nodes
import BoundSql.Proofs.Clause.Sites
import BoundSql.Proofs.Running
import BoundSql.Proofs.Scanning
import BoundSql.Proofs.Schema.Table

/-!
# Placeholders in the text of a statement

A driver sees the text of a statement only. When all names are identifiers, all operators have a
symbol of their own and separators separate, the placeholders that it finds there are the names
that rendering has handed out, in the order in which it did; without those of the values to come
they are the keys of the parameters.
-/

namespace BoundSql

/-! ### Names in order -/

/-- The table and its columns are named by identifiers. -/
def Table.Conventional (t : Table) : Prop :=
  isIdentifier t.name = true ∧ ∀ name ∈ t.columnNames, isIdentifier name = true

def Source.Conventional : Source → Prop
  | .table t => t.Conventional
  | .aliased a => a.table.Conventional ∧ isIdentifier a.name = true

def ColumnRef.Conventional (c : ColumnRef) : Prop :=
  isIdentifier c.name = true ∧ (∀ s ∈ c.source, s.Conventional) ∧
    ∀ qualifier ∈ c.qualifier, isIdentifier qualifier = true

/-- The names of a node are identifiers, its operators have a symbol of their own, and its
separator separates. -/
def Clause.Conventional : Clause → Prop
  | .table t => t.Conventional
  | .named name => isIdentifier name = true
  | .aliased a => (Source.aliased a).Conventional
  | .column c => c.Conventional
  | .binary _ o _ => o.isCustom = false
  | .unary o _ m => (∀ p ∈ o, p.isCustom = false) ∧ ∀ p ∈ m, p.isCustom = false
  | .junction o _ => o.isCustom = false
  | .sequence _ separator => Template.Separates separator
  | .bind key _ => isIdentifier key = true
  | .select _ _ _ order _ _ _ => ∀ o ∈ order, Template.Separates o.separator
  | .insert t _ => t.Conventional
  | .update t _ _ => t.Conventional
  | .delete t _ => t.Conventional
  | .group _ | .null | .join .. => True

/-! ### Texts without colons -/

theorem colon_not_mem_append (s t : String) (hs : ':' ∉ s.toList) (ht : ':' ∉ t.toList) :
    ':' ∉ (s ++ t).toList := by
  simp [hs, ht]

theorem colon_not_mem_intercalate (separator : String) (ss : List String)
    (hs : ':' ∉ separator.toList) (h : ∀ s ∈ ss, ':' ∉ s.toList) :
    ':' ∉ (separator.intercalate ss).toList := by
  induction ss with
  | nil => simp
  | cons s ss ih =>
    obtain ⟨hfirst, hrest⟩ := List.forall_mem_cons.mp h
    cases ss with
    | nil => simpa using hfirst
    | cons t ts =>
      rw [String.intercalate_cons_cons]
      exact colon_not_mem_append _ _ (colon_not_mem_append _ _ hfirst hs) (ih hrest)

theorem colon_not_mem_identifier (name : String) (h : isIdentifier name = true) :
    ':' ∉ name.toList :=
  not_mem_of_isWord _ (isWord_of_isIdentifier name h)

theorem Operator.colon_not_mem_symbol (o : Operator) (h : o.isCustom = false) :
    ':' ∉ o.symbol.toList := by
  cases o with
  | custom token => cases h
  | _ => decide

theorem colon_not_mem_limitText (limit offset : Option UInt64) :
    ':' ∉ (limitText limit offset).toList := by
  have hcount (n : UInt64) : ':' ∉ (toString n.toNat).toList := by
    simpa using not_mem_of_isWord _ (isWord_digits n.toNat)
  cases limit with
  | none =>
    cases offset with
    | none => exact List.not_mem_nil
    | some o => exact colon_not_mem_append " LIMIT -1 OFFSET " _ (by decide) (hcount o)
  | some l =>
    have hlimit := colon_not_mem_append " LIMIT " _ (by decide) (hcount l)
    cases offset with
    | none => exact hlimit
    | some o =>
      refine colon_not_mem_append _ _ ?_ (hcount o)
      exact colon_not_mem_append _ " OFFSET " hlimit (by decide)

namespace Quoting

theorem colon_not_mem_doubleMark (mark : List Char) (skip : Nat) (cs : List Char)
    (hmark : ':' ∉ mark) (hcs : ':' ∉ cs) : ':' ∉ doubleMark mark skip cs := by
  induction cs generalizing skip with
  | nil => cases skip <;> simp [doubleMark]
  | cons c cs ih =>
    rw [List.mem_cons, not_or] at hcs
    cases skip with
    | succ skip => simpa [doubleMark, hcs.1] using ih skip hcs.2
    | zero =>
      rw [doubleMark]
      split
      · simp [hmark, hcs.1, ih _ hcs.2]
      · simp [hcs.1, ih _ hcs.2]

theorem colon_not_mem_quote (d : Dialect) (name : String) (h : isIdentifier name = true) :
    ':' ∉ (d.quoting.quote name).toList := by
  have hmarks : ':' ∉ d.quoting.opening.toList ∧ ':' ∉ d.quoting.closing.toList := by
    cases d <;> decide
  rw [quote, String.toList_ofList, quoteText, List.append_assoc, List.mem_append, List.mem_append]
  rintro (hopening | hname | hclosing)
  · exact hmarks.1 hopening
  · exact colon_not_mem_doubleMark _ 0 _ hmarks.2 (colon_not_mem_identifier name h) hname
  · exact hmarks.2 hclosing

theorem colon_not_mem_quoteColumn (d : Dialect) (c : ColumnRef) (h : c.Conventional) :
    ':' ∉ (d.quoting.quoteColumn c).toList := by
  obtain ⟨hname, hsource, hqualifier⟩ := h
  have howner : ∀ owner ∈ c.ownerName, isIdentifier owner = true := by
    intro owner ho
    simp only [ColumnRef.ownerName] at ho
    cases hs : c.source with
    | none =>
      rw [hs] at ho
      exact hqualifier owner ho
    | some s =>
      rw [hs] at ho hsource
      obtain rfl := Option.some.inj ho
      cases s with
      | table t => exact (hsource _ rfl).1
      | aliased a => exact (hsource _ rfl).2
  rw [quoteColumn]
  cases ho : c.ownerName with
  | none => exact colon_not_mem_quote d c.name hname
  | some owner =>
    refine colon_not_mem_append _ _ ?_ (colon_not_mem_quote d c.name hname)
    exact colon_not_mem_append _ _ (colon_not_mem_quote d owner (howner owner ho)) (by decide)

end Quoting

namespace Clause

theorem colon_not_mem_sourceText (d : Dialect) (s : Source) (h : s.Conventional) :
    ':' ∉ (sourceText d.quoting s).toList := by
  cases s with
  | table t => exact Quoting.colon_not_mem_quote d t.name h.1
  | aliased a =>
    refine colon_not_mem_append _ _ ?_ (colon_not_mem_identifier a.name h.2)
    exact colon_not_mem_append _ _ (Quoting.colon_not_mem_quote d a.table.name h.1.1) (by decide)

/-! ### Owners -/

theorem column_mem_nodes (c : Clause) (r : ColumnRef) (h : r ∈ columnRefs c) :
    .column r ∈ c.nodes := by
  have hall : ∀ cs : List Clause, (∀ d ∈ cs, r ∈ columnRefs d → .column r ∈ d.nodes) →
      r ∈ columnRefsOfAll cs → .column r ∈ cs.flatMap nodes := by
    intro cs ih hr
    rw [columnRefsOfAll_eq_flatMap, List.mem_flatMap] at hr
    obtain ⟨d, hd, hrd⟩ := hr
    exact List.mem_flatMap.mpr ⟨d, hd, ih d hd hrd⟩
  induction c using Clause.induct with
  | column s =>
    rw [List.mem_singleton.mp h]
    exact List.mem_singleton.mpr rfl
  | binary l o r' ihl ihr =>
    rw [nodes, List.mem_cons, List.mem_append]
    rcases List.mem_append.mp h with hl | hr
    · exact Or.inr (Or.inl (ihl hl))
    · exact Or.inr (Or.inr (ihr hr))
  | unary o c m ih => exact List.mem_cons_of_mem _ (ih h)
  | group c ih => exact List.mem_cons_of_mem _ (ih h)
  | junction o cs ih =>
    rw [nodes_eq]
    exact List.mem_cons_of_mem _ (hall cs ih h)
  | sequence cs separator ih =>
    rw [nodes_eq]
    exact List.mem_cons_of_mem _ (hall cs ih h)
  | _ => exact absurd h List.not_mem_nil

theorem mem_foldl_addOwner (os acc : List Owner) (o : Owner) (h : o ∈ os.foldl addOwner acc) :
    o ∈ acc ∨ o ∈ os := by
  induction os generalizing acc with
  | nil => exact Or.inl h
  | cons p os ih =>
    rcases ih _ h with hacc | hos
    · unfold addOwner at hacc
      split at hacc
      · exact Or.inl hacc
      · rcases List.mem_append.mp hacc with ha | hp
        · exact Or.inl ha
        · exact Or.inr (List.mem_singleton.mp hp ▸ List.mem_cons_self ..)
    · exact Or.inr (List.mem_cons_of_mem _ hos)

theorem colon_not_mem_ownerText (d : Dialect) (columns : List Clause)
    (hc : ∀ c ∈ columns, ∀ e ∈ c.nodes, e.Conventional) (o : Owner) (ho : o ∈ ownersOf columns) :
    ':' ∉ (ownerText d.quoting o).toList := by
  rcases mem_foldl_addOwner _ [] o ho with hnil | hmem
  · exact absurd hnil List.not_mem_nil
  · obtain ⟨r, hr, hro⟩ := List.mem_filterMap.mp hmem
    rw [columnRefsOfAll_eq_flatMap, List.mem_flatMap] at hr
    obtain ⟨c, hcmem, hrc⟩ := hr
    obtain ⟨_, hsource, hqualifier⟩ := hc c hcmem _ (column_mem_nodes c r hrc)
    unfold Owner.ofColumn? at hro
    cases hs : r.source with
    | some s =>
      simp only [hs, Option.some.injEq] at hro
      rw [← hro]
      exact colon_not_mem_sourceText d s (hsource s hs)
    | none =>
      cases hq : r.qualifier with
      | none => simp [hs, hq] at hro
      | some name =>
        simp only [hs, hq, Option.some.injEq] at hro
        rw [← hro]
        exact Quoting.colon_not_mem_quote d name (hqualifier name hq)

/-! ### Parts of statements -/

theorem separates_comma : Template.Separates ", " :=
  ⟨by decide, ended_cons ',' _ (by decide), by decide⟩

theorem ended_space (s : String) : Ended (" " ++ s).toList := by
  rw [String.toList_append]
  exact ended_cons ' ' _ (by decide)

theorem apart_space (s : String) (t : Template) : Template.Apart (.text (" " ++ s) :: t) :=
  Template.apart_text_cons _ t (by simp) (ended_space s)

theorem separates_symbol (o : Operator) (h : o.isCustom = false) :
    Template.Separates (" " ++ o.symbol ++ " ") := by
  have hsymbol := o.colon_not_mem_symbol h
  rw [String.append_assoc]
  refine ⟨by simp, ended_space _, ?_⟩
  exact colon_not_mem_append _ _ (by decide) (colon_not_mem_append _ _ hsymbol (by decide))

theorem legible_spaced (s : String) (t : Template) (hs : ':' ∉ (" " ++ s).toList)
    (ht : Template.Legible t) :
    Template.Legible (.text (" " ++ s) :: t) ∧ Template.Apart (.text (" " ++ s) :: t) :=
  ⟨⟨hs, ht⟩, apart_space s t⟩

theorem legible_columnsTemplate (q : Quoting) (columns : List Clause)
    (h : ∀ c ∈ columns, Template.Legible (c.template q)) :
    Template.Legible (columnsTemplate q columns) := by
  unfold columnsTemplate
  split
  · exact ⟨by decide, trivial⟩
  · refine Template.legible_join ", " _ separates_comma fun t ht => ?_
    obtain ⟨c, hc, rfl⟩ := List.mem_map.mp ht
    exact h c hc

theorem legible_fromTemplate (froms : List Template) (h : ∀ t ∈ froms, Template.Legible t) :
    Template.Legible (fromTemplate froms) ∧ Template.Apart (fromTemplate froms) := by
  unfold fromTemplate
  split
  · exact ⟨trivial, trivial⟩
  · exact legible_spaced "FROM " _ (by decide) (Template.legible_join ", " froms separates_comma h)

theorem legible_fromsTemplate (d : Dialect) (columns froms : List Clause)
    (hc : ∀ c ∈ columns, ∀ e ∈ c.nodes, e.Conventional)
    (h : ∀ c ∈ froms, Template.Legible (c.template d.quoting)) :
    Template.Legible (fromsTemplate d.quoting columns froms) ∧
      Template.Apart (fromsTemplate d.quoting columns froms) := by
  unfold fromsTemplate
  split
  · refine legible_fromTemplate _ fun t ht => ?_
    obtain ⟨o, ho, rfl⟩ := List.mem_map.mp ht
    exact ⟨colon_not_mem_ownerText d columns hc o ho, trivial⟩
  · refine legible_fromTemplate _ fun t ht => ?_
    obtain ⟨c, hc, rfl⟩ := List.mem_map.mp ht
    exact h c hc

theorem legible_whereTemplate (q : Quoting) (condition : Option Clause)
    (h : ∀ c ∈ condition, Template.Legible (c.template q)) :
    Template.Legible (whereTemplate q condition) ∧
      Template.Apart (whereTemplate q condition) := by
  cases condition with
  | none => exact ⟨trivial, trivial⟩
  | some c => exact legible_spaced "WHERE " _ (by decide) (h c rfl)

theorem legible_orderTemplate (q : Quoting) (order : Option (OrderTerms Clause))
    (hs : ∀ o ∈ order, Template.Separates o.separator)
    (h : ∀ o ∈ order, ∀ c ∈ OrderTerms.terms o, Template.Legible (c.template q)) :
    Template.Legible (orderTemplate q order) ∧ Template.Apart (orderTemplate q order) := by
  cases order with
  | none => exact ⟨trivial, trivial⟩
  | some o =>
    rw [orderTemplate]
    split
    · exact ⟨trivial, trivial⟩
    · refine legible_spaced "ORDER BY " _ (by decide) ?_
      refine Template.legible_join o.separator _ (hs o rfl) fun t ht => ?_
      obtain ⟨c, hc, rfl⟩ := List.mem_map.mp ht
      exact h o rfl c hc

theorem legible_limitText (limit offset : Option UInt64) :
    Template.Legible [.text (limitText limit offset)] ∧
      Template.Apart [.text (limitText limit offset)] := by
  refine ⟨⟨colon_not_mem_limitText limit offset, trivial⟩, ?_⟩
  have happart (head tail : String) (hhead : head ≠ "") (h : Ended head.toList) :
      Template.Apart [.text (head ++ tail)] := by
    refine Template.apart_text_cons _ [] (by simp [hhead]) ?_
    rw [String.toList_append]
    exact ended_append _ _ (by simpa using hhead) h
  unfold limitText
  split
  · rw [String.append_assoc, String.append_assoc]
    exact happart " LIMIT " _ (by decide) (ended_cons ' ' _ (by decide))
  · exact happart " LIMIT " _ (by decide) (ended_cons ' ' _ (by decide))
  · exact happart " LIMIT -1 OFFSET " _ (by decide) (ended_cons ' ' _ (by decide))
  · trivial

/-- The pieces that set columns of a table: the values of declared columns under their names. -/
theorem legible_assignments (d : Dialect) (t : Table) (values : Option (List (String × Scalar)))
    (set : List Assignment) (ht : t.Conventional) (h : assignments d.quoting t values = .ok set) :
    ∀ a ∈ set, ':' ∉ a.1.toList ∧ Template.Legible [a.2] := by
  obtain ⟨_, hnames⟩ := ht
  cases values with
  | none =>
    simp only [assignments, Except.ok.injEq] at h
    intro a ha
    rw [← h] at ha
    obtain ⟨name, hmem, rfl⟩ := List.mem_map.mp ha
    have hid := hnames name hmem
    exact ⟨Quoting.colon_not_mem_quote d name hid, isWord_of_isIdentifier name hid, trivial,
      trivial⟩
  | some values =>
    simp only [assignments] at h
    split at h
    · cases h
    · next hunknown =>
      split at h
      · cases h
      · simp only [Bool.not_eq_true, Bool.not_eq_false', List.isEmpty_iff] at hunknown
        simp only [Except.ok.injEq] at h
        intro a ha
        rw [← h] at ha
        obtain ⟨⟨name, v⟩, hmem, rfl⟩ := List.mem_map.mp ha
        have hid := hnames name ((t.unknownColumns_eq_nil _).mp hunknown name
          (List.mem_map_of_mem hmem))
        exact ⟨Quoting.colon_not_mem_quote d name hid, isWord_of_isIdentifier name hid, trivial,
          trivial⟩

theorem legible_insertTemplate (d : Dialect) (t : Table)
    (values : Option (List (String × Scalar))) (ht : t.Conventional) :
    Template.Legible (insertTemplate d.quoting t values) := by
  unfold insertTemplate
  cases ha : assignments d.quoting t values with
  | error cause => trivial
  | ok set =>
    have hset := legible_assignments d t values set ht ha
    have hcolumns : ':' ∉ (", ".intercalate (set.map (·.1))).toList := by
      refine colon_not_mem_intercalate ", " _ (by decide) fun s hs => ?_
      obtain ⟨a, hmem, rfl⟩ := List.mem_map.mp hs
      exact (hset a hmem).1
    have hhead : ':' ∉ ("INSERT INTO " ++ d.quoting.quote t.name ++ " ("
        ++ ", ".intercalate (set.map (·.1)) ++ ") VALUES (").toList := by
      simp only [String.toList_append, List.mem_append, not_or]
      exact ⟨⟨⟨⟨by decide, Quoting.colon_not_mem_quote d t.name ht.1⟩, by decide⟩, hcolumns⟩,
        by decide⟩
    refine ⟨hhead, Template.legible_append _ _ ?_ ⟨by decide, trivial⟩ ?_⟩
    · refine Template.legible_join ", " _ separates_comma fun u hu => ?_
      obtain ⟨a, hmem, rfl⟩ := List.mem_map.mp hu
      exact (hset a hmem).2
    · exact Template.apart_text_cons ")" [] (by decide) (ended_cons ')' [] (by decide))

theorem legible_updateTemplate (d : Dialect) (t : Table)
    (values : Option (List (String × Scalar))) (ht : t.Conventional) :
    Template.Legible (updateTemplate d.quoting t values) := by
  unfold updateTemplate
  cases ha : assignments d.quoting t values with
  | error cause => trivial
  | ok set =>
    have hset := legible_assignments d t values set ht ha
    have hhead : ':' ∉ ("UPDATE " ++ d.quoting.quote t.name ++ " SET ").toList := by
      simp only [String.toList_append, List.mem_append, not_or]
      exact ⟨⟨by decide, Quoting.colon_not_mem_quote d t.name ht.1⟩, by decide⟩
    refine ⟨hhead, Template.legible_join ", " _ separates_comma fun u hu => ?_⟩
    obtain ⟨a, hmem, rfl⟩ := List.mem_map.mp hu
    exact ⟨colon_not_mem_append _ _ (hset a hmem).1 (by decide), (hset a hmem).2⟩

/-! ### Clauses -/

theorem legible_memberTemplate (q : Quoting) (c : Clause) (h : Template.Legible (c.template q)) :
    Template.Legible (memberTemplate q c) := by
  unfold memberTemplate
  split
  · exact Template.legible_parenthesized _ h
  · exact h

theorem legible_template (d : Dialect) (c : Clause) (hc : ∀ e ∈ c.nodes, e.Conventional) :
    Template.Legible (c.template d.quoting) := by
  induction c using Clause.induct_children with
  | step c ih =>
    rw [forall_nodes] at hc
    obtain ⟨hself, hbelow⟩ := hc
    have hlegible : ∀ e ∈ c.children, Template.Legible (e.template d.quoting) :=
      fun e he => ih e he (hbelow e he)
    cases c with
    | table t => exact ⟨colon_not_mem_sourceText d (.table t) hself, trivial⟩
    | named name => exact ⟨Quoting.colon_not_mem_quote d name hself, trivial⟩
    | aliased a => exact ⟨colon_not_mem_sourceText d (.aliased a) hself, trivial⟩
    | column r => exact ⟨Quoting.colon_not_mem_quoteColumn d r hself, trivial⟩
    | null => exact ⟨by decide, trivial⟩
    | bind key v => exact ⟨isWord_of_isIdentifier key hself, trivial, trivial⟩
    | binary l o r =>
      obtain ⟨hnonempty, hended, hcolon⟩ := separates_symbol o hself
      refine Template.legible_append _ _ (hlegible l (by simp [children])) ?_ ?_
      · exact ⟨hcolon, hlegible r (by simp [children])⟩
      · exact Template.apart_text_cons _ _ hnonempty hended
    | unary o e m =>
      have hoperand := hlegible e (List.mem_singleton.mpr rfl)
      have ho : Template.Legible (operatorText o ++ e.template d.quoting) := by
        cases o with
        | none => exact hoperand
        | some o =>
          have hsymbol := o.colon_not_mem_symbol (hself.1 o rfl)
          exact ⟨colon_not_mem_append _ _ hsymbol (by decide), hoperand⟩
      cases m with
      | none => exact Template.legible_append _ [] ho trivial trivial
      | some m =>
        have hsymbol := m.colon_not_mem_symbol (hself.2 m rfl)
        exact Template.legible_append _ _ ho
          ⟨colon_not_mem_append _ _ (by decide) hsymbol, trivial⟩ (apart_space m.symbol [])
    | junction o cs =>
      rw [template]
      split
      · trivial
      · rw [memberTemplates_eq_map]
        refine Template.legible_join _ _ (separates_symbol o hself) fun t ht => ?_
        obtain ⟨e, he, rfl⟩ := List.mem_map.mp ht
        exact legible_memberTemplate _ e (hlegible e he)
    | group e =>
      have hinner := hlegible e (List.mem_singleton.mpr rfl)
      rw [template]
      split
      · exact hinner
      · exact Template.legible_parenthesized _ hinner
    | sequence cs separator =>
      rw [template, templates_eq_map]
      refine Template.legible_join separator _ hself fun t ht => ?_
      obtain ⟨e, he, rfl⟩ := List.mem_map.mp ht
      exact hlegible e he
    | join l r on outer =>
      have hl := hlegible l (by simp [children])
      have hr := hlegible r (by simp [children])
      have hon := hlegible on (by simp [children])
      have hword : Template.Separates (if outer then " LEFT OUTER JOIN " else " JOIN ") := by
        cases outer <;> exact ⟨by decide, ended_cons ' ' _ (by decide), by decide⟩
      refine Template.legible_append _ _ ?_ ⟨by decide, hon⟩ (apart_space "ON " _)
      exact Template.legible_append _ _ hl ⟨hword.2.2, hr⟩
        (Template.apart_text_cons _ _ hword.1 hword.2.1)
    | select columns froms condition order limit offset distinct =>
      obtain ⟨hc, hf, hw, ho⟩ := (forall_children_select _ ..).mp hlegible
      have hcolumns := legible_columnsTemplate d.quoting columns hc
      have hfroms := legible_fromsTemplate d columns froms
        ((forall_children_select _ ..).mp hbelow).1 hf
      have hwhere := legible_whereTemplate d.quoting condition hw
      have horder := legible_orderTemplate d.quoting order hself ho
      have hlimit := legible_limitText limit offset
      have hhead : ':' ∉ (if distinct then "SELECT DISTINCT " else "SELECT ").toList := by
        cases distinct <;> decide
      rw [template_select]
      refine Template.legible_append _ _ ?_ hlimit.1 hlimit.2
      refine Template.legible_append _ _ ?_ horder.1 horder.2
      refine Template.legible_append _ _ ?_ hwhere.1 hwhere.2
      exact Template.legible_append _ _ ⟨hhead, hcolumns⟩ hfroms.1 hfroms.2
    | insert t values => exact legible_insertTemplate d t values hself
    | update t values condition =>
      have hwhere := legible_whereTemplate d.quoting condition
        fun e he => hlegible e (Option.mem_toList.mpr he)
      rw [template_update]
      exact Template.legible_append _ _ (legible_updateTemplate d t values hself) hwhere.1 hwhere.2
    | delete t condition =>
      have hwhere := legible_whereTemplate d.quoting condition
        fun e he => hlegible e (Option.mem_toList.mpr he)
      rw [template_delete]
      exact ⟨colon_not_mem_append _ _ (by decide) (Quoting.colon_not_mem_quote d t.name hself.1),
        hwhere.1⟩

/-! ### What a driver sees -/

/-- The names that are handed out for values to come. -/
def reserved (c : Clause) : List String := c.sites.filterMap Site.reserved?

/--
The placeholders that stand in the text of a statement are the names that rendering has handed
out, each once and in the order in which it did. Without the names of values to come they are the
keys of the parameters.
-/
theorem compile_scans (d : Dialect) (c : Clause) (s : Statement)
    (hc : ∀ e ∈ c.nodes, e.Conventional) (h : c.compile d.quoting = .ok s) :
    ∃ b, Template.run {} (c.template d.quoting) = .ok b ∧ s.params = b.params ∧
      placeholders s.sql.toList = b.taken.reverse ∧ b.taken.reverse.Nodup ∧
      Site.Named [] c.sites b.taken.reverse ∧
      s.params.keys = (placeholders s.sql.toList).filter fun name => name ∉ c.reserved := by
  obtain ⟨texts, b, hfill, hsql, hparams⟩ := compile_ok d.quoting c s h
  obtain ⟨hwhole, names, hnames, htexts⟩ := Template.fill_ok {} b _ texts hfill
  have hsites := sites_template d.quoting c hwhole
  rw [hsites] at hnames
  obtain ⟨hnamed, hentries, _⟩ := Binder.nameSites_ok {} b _ names Binder.empty_good hnames
  have htaken : b.taken.reverse = names := by
    rw [Binder.taken_nameSites {} b _ names Binder.empty_good hnames]
    simp
  have hscan : placeholders s.sql.toList = names := by
    rw [hsql, htexts, String.toList_join]
    refine Template.placeholders_chars _ names (legible_template d c hc) ?_
    rw [hsites]
    exact hnamed.fits
  have hkeys : s.params.keys = names.filter fun name => name ∉ c.reserved := by
    rw [Params.keys, hparams, hentries]
    exact Site.keys_carried c.sites names hnamed.fits hnamed.nodup.1
  refine ⟨b, by rw [Template.run, hfill]; rfl, hparams, ?_⟩
  rw [hscan, htaken]
  exact ⟨rfl, hnamed.nodup.1, hnamed, hkeys⟩

/-- Two statements about players, whose names have others at their beginning. -/
def playerBatch : Clause :=
  .sequence [.insert ⟨"players", [⟨"id_1", .integer, {}⟩, ⟨"id", .integer, {}⟩]⟩ none,
    .update ⟨"players", [⟨"id_1", .integer, {}⟩, ⟨"id_2", .integer, {}⟩]⟩
      (some [("id_2", .int 3)])
      (some (.binary (.column { name := "id" }) .within
        (.group (.sequence [.bind "id" (.int 4), .bind "id_1" .null] ", "))))] ";"

def playerSql : String :=
  "INSERT INTO \x60players\x60 (\x60id_1\x60, \x60id\x60) VALUES (:id_1, :id);"
    ++ "UPDATE \x60players\x60 SET \x60id_2\x60 = :id_2 WHERE \x60id\x60 IN (:id_3, :id_1_1)"

def playerParams : Params := ⟨[("id_2", .int 3), ("id_3", .int 4), ("id_1_1", .null)]⟩

theorem compile_scans_playerBatch :
    (∀ e ∈ playerBatch.nodes, e.Conventional) ∧
      playerBatch.compile Dialect.mysql.quoting = .ok ⟨playerSql, playerParams⟩ ∧
      ∃ b, Template.run {} (playerBatch.template Dialect.mysql.quoting) = .ok b ∧
        playerParams = b.params ∧ placeholders playerSql.toList = b.taken.reverse ∧
        b.taken.reverse.Nodup ∧ Site.Named [] playerBatch.sites b.taken.reverse ∧
        playerParams.keys
          = (placeholders playerSql.toList).filter fun name => name ∉ playerBatch.reserved := by
  have hsemicolon : Template.Separates ";" :=
    ⟨by decide, ended_cons ';' _ (by decide), by decide⟩
  have hid : isIdentifier "id" = true := by decide
  have hid₁ : isIdentifier "id_1" = true := by decide
  have hc : ∀ e ∈ playerBatch.nodes, e.Conventional := by
    simp only [playerBatch, nodes, nodesOfAll, List.cons_append, List.nil_append,
      List.append_nil, List.forall_mem_cons]
    refine ⟨hsemicolon, ⟨by decide, by decide⟩, ⟨by decide, by decide⟩, rfl, ⟨hid, ?_, ?_⟩,
      trivial, separates_comma, hid, hid₁, ?_⟩ <;> simp
  exact ⟨hc, rfl, compile_scans .mysql playerBatch _ hc rfl⟩

end Clause

end BoundSql
