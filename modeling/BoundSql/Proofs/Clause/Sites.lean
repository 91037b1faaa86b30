import BoundSql.Proofs.Clause.Induction
import BoundSql.Proofs.Filling
import BoundSql.Statement

/-!
# Sites of a clause

The sites of a clause are its bound values and the columns that its statements set, in the order
in which they are rendered. A clause that renders has given every site a name of its own, and its
parameters are the named values in that order.
-/

namespace BoundSql

/-- The sites of the columns that a statement sets. -/
def columnSites (t : Table) : Option (List (String × Scalar)) → List Site
  | some values => values.map fun (column, v) => .record column v
  | none => t.columnNames.map .reserve

namespace Clause

mutual
/-- The sites of a clause, in the order in which they are rendered. -/
def sites : Clause → List Site
  | binary l _ r => sites l ++ sites r
  | unary _ c _ => sites c
  | junction _ cs => sitesOfAll cs
  | group c => sites c
  | sequence cs _ => sitesOfAll cs
  | bind key v => [.bind key v]
  | join l r on _ => sites l ++ sites r ++ sites on
  | select columns froms condition order _ _ _ =>
    sitesOfAll columns ++ sitesOfAll froms
      ++ (match condition with
          | some c => sites c
          | none => [])
      ++ (match order with
          | some ⟨terms, _⟩ => sitesOfAll terms
          | none => [])
  | insert t values => columnSites t values
  | update t values condition =>
    columnSites t values
      ++ (match condition with
          | some c => sites c
          | none => [])
  | delete _ condition =>
    match condition with
    | some c => sites c
    | none => []
  | _ => []

def sitesOfAll : List Clause → List Site
  | [] => []
  | c :: cs => sites c ++ sitesOfAll cs
end

theorem sitesOfAll_eq_flatMap (cs : List Clause) : sitesOfAll cs = cs.flatMap sites := by
  induction cs with
  | nil => rfl
  | cons c cs ih => rw [sitesOfAll, ih, List.flatMap_cons]

def whereSites (condition : Option Clause) : List Site := condition.elim [] sites

def orderSites (order : Option (OrderTerms Clause)) : List Site :=
  order.elim [] fun o => o.terms.flatMap sites

theorem sites_select (columns froms : List Clause) (condition : Option Clause)
    (order : Option (OrderTerms Clause)) (limit offset : Option UInt64) (distinct : Bool) :
    sites (.select columns froms condition order limit offset distinct)
      = columns.flatMap sites ++ froms.flatMap sites ++ whereSites condition
        ++ orderSites order := by
  cases condition <;> cases order <;>
    simp only [sites, sitesOfAll_eq_flatMap, whereSites, orderSites, Option.elim]

theorem sites_update (t : Table) (values : Option (List (String × Scalar)))
    (condition : Option Clause) :
    sites (.update t values condition) = columnSites t values ++ whereSites condition := by
  cases condition <;> simp only [sites, whereSites, Option.elim]

theorem sites_delete (t : Table) (condition : Option Clause) :
    sites (.delete t condition) = whereSites condition := by
  cases condition <;> simp only [sites, whereSites, Option.elim]

/-! ### The sites of its template -/

theorem sites_join_templates (q : Quoting) (separator : String) (cs : List Clause)
    (ih : ∀ c ∈ cs, (c.template q).Whole → Template.sites (c.template q) = c.sites)
    (h : (Template.join separator (cs.map (template q))).Whole) :
    Template.sites (Template.join separator (cs.map (template q))) = cs.flatMap sites := by
  rw [Template.whole_join] at h
  rw [Template.sites_join, List.flatMap_map]
  exact List.flatMap_congr fun c hc => ih c hc (h _ (List.mem_map_of_mem hc))

theorem sites_memberTemplate (q : Quoting) (c : Clause) :
    Template.sites (memberTemplate q c) = Template.sites (c.template q) := by
  unfold memberTemplate
  split
  · exact Template.sites_parenthesized _
  · rfl

theorem whole_memberTemplate (q : Quoting) (c : Clause) :
    (memberTemplate q c).Whole ↔ (c.template q).Whole := by
  unfold memberTemplate
  split
  · exact Template.whole_parenthesized _
  · rfl

theorem sites_fromTemplate (froms : List Template) :
    Template.sites (fromTemplate froms) = froms.flatMap Template.sites := by
  unfold fromTemplate
  split
  · next h => rw [List.isEmpty_iff.mp h]; rfl
  · rw [Template.sites_text_cons, Template.sites_join]

theorem whole_fromTemplate (froms : List Template) :
    (fromTemplate froms).Whole ↔ ∀ t ∈ froms, t.Whole := by
  unfold fromTemplate
  split
  · next h => rw [List.isEmpty_iff.mp h]; simp [Template.whole_nil]
  · rw [Template.whole_text_cons, Template.whole_join]

theorem sites_of_assignments (q : Quoting) (t : Table) (values : Option (List (String × Scalar)))
    (set : List Assignment) (h : assignments q t values = .ok set) :
    set.map (fun a => a.2.site?) = (columnSites t values).map some := by
  cases values with
  | none =>
    simp only [assignments, Except.ok.injEq] at h
    rw [← h, columnSites, List.map_map, List.map_map]
    rfl
  | some values =>
    simp only [assignments] at h
    split at h
    · cases h
    · split at h
      · cases h
      · simp only [Except.ok.injEq] at h
        rw [← h, columnSites, List.map_map, List.map_map]
        rfl

theorem flatMap_sites_of_pieces (f : Assignment → Template) (set : List Assignment)
    (sites : List Site) (hf : ∀ a, Template.sites (f a) = a.2.site?.toList)
    (h : set.map (fun a => a.2.site?) = sites.map some) :
    (set.map f).flatMap Template.sites = sites := by
  have hset : (set.map f).flatMap Template.sites
      = (set.map (fun a => a.2.site?)).flatMap (·.toList) := by
    rw [List.flatMap_map, List.flatMap_map]
    exact List.flatMap_congr fun a _ => hf a
  rw [hset, h, List.flatMap_map]
  exact List.flatMap_singleton' sites

theorem sites_insertTemplate (q : Quoting) (t : Table) (values : Option (List (String × Scalar)))
    (h : (insertTemplate q t values).Whole) :
    Template.sites (insertTemplate q t values) = columnSites t values := by
  unfold insertTemplate at h ⊢
  cases ha : assignments q t values with
  | error cause =>
    rw [ha] at h
    exact absurd h (Template.not_whole_refuse cause [])
  | ok set =>
    simp only [List.cons_append, Template.sites_text_cons, Template.sites_append,
      Template.sites_join, Template.sites_nil, List.append_nil]
    exact flatMap_sites_of_pieces _ set _ (fun a => Template.sites_singleton a.2)
      (sites_of_assignments q t values set ha)

theorem sites_updateTemplate (q : Quoting) (t : Table) (values : Option (List (String × Scalar)))
    (h : (updateTemplate q t values).Whole) :
    Template.sites (updateTemplate q t values) = columnSites t values := by
  unfold updateTemplate at h ⊢
  cases ha : assignments q t values with
  | error cause =>
    rw [ha] at h
    exact absurd h (Template.not_whole_refuse cause [])
  | ok set =>
    simp only [Template.sites_text_cons, Template.sites_join]
    exact flatMap_sites_of_pieces _ set _ (fun a => Template.sites_singleton a.2)
      (sites_of_assignments q t values set ha)

theorem sites_columnsTemplate (q : Quoting) (columns : List Clause)
    (ih : ∀ c ∈ columns, (c.template q).Whole → Template.sites (c.template q) = c.sites)
    (h : (columnsTemplate q columns).Whole) :
    Template.sites (columnsTemplate q columns) = columns.flatMap sites := by
  unfold columnsTemplate at h ⊢
  split at h
  · next he => rw [List.isEmpty_iff.mp he]; rfl
  · next he =>
    simp only [he, Bool.false_eq_true, ite_false]
    exact sites_join_templates q ", " columns ih h

theorem sites_fromsTemplate (q : Quoting) (columns froms : List Clause)
    (ih : ∀ c ∈ froms, (c.template q).Whole → Template.sites (c.template q) = c.sites)
    (h : (fromsTemplate q columns froms).Whole) :
    Template.sites (fromsTemplate q columns froms) = froms.flatMap sites := by
  unfold fromsTemplate at h ⊢
  split at h
  · next he =>
    -- Owners are written as their names alone.
    have howners : Template.sites
        (fromTemplate ((ownersOf columns).map fun o => [.text (ownerText q o)])) = [] := by
      rw [sites_fromTemplate, List.flatMap_map]
      exact List.flatMap_eq_nil_iff.mpr fun o _ => rfl
    rw [if_pos he, howners, List.isEmpty_iff.mp he, List.flatMap_nil]
  · next he =>
    rw [whole_fromTemplate] at h
    simp only [he, Bool.false_eq_true, ite_false, sites_fromTemplate, List.flatMap_map]
    exact List.flatMap_congr fun c hc => ih c hc (h _ (List.mem_map_of_mem hc))

theorem sites_whereTemplate (q : Quoting) (condition : Option Clause)
    (ih : ∀ c ∈ condition, (c.template q).Whole → Template.sites (c.template q) = c.sites)
    (h : (whereTemplate q condition).Whole) :
    Template.sites (whereTemplate q condition) = whereSites condition := by
  cases condition with
  | none => rfl
  | some c =>
    rw [whereTemplate, Template.whole_text_cons] at h
    rw [whereTemplate, Template.sites_text_cons, ih c rfl h]
    rfl

theorem sites_orderTemplate (q : Quoting) (order : Option (OrderTerms Clause))
    (ih : ∀ o ∈ order, ∀ c ∈ OrderTerms.terms o,
      (c.template q).Whole → Template.sites (c.template q) = c.sites)
    (h : (orderTemplate q order).Whole) :
    Template.sites (orderTemplate q order) = orderSites order := by
  cases order with
  | none => rfl
  | some o =>
    simp only [orderTemplate] at h ⊢
    split at h
    · next he =>
      simp only [orderSites, Option.elim, List.isEmpty_iff.mp he]
      rfl
    · next he =>
      rw [Template.whole_text_cons] at h
      simp only [he, Bool.false_eq_true, ite_false, Template.sites_text_cons, orderSites,
        Option.elim]
      exact sites_join_templates q o.separator o.terms (ih o rfl) h

/-- A template that refuses nothing has the sites of its clause. -/
theorem sites_template (q : Quoting) (c : Clause) (h : (c.template q).Whole) :
    Template.sites (c.template q) = c.sites := by
  induction c using Clause.induct with
  | table t => rfl
  | named name => rfl
  | aliased a => rfl
  | column c => rfl
  | null => rfl
  | bind key v => rfl
  | binary l o r ihl ihr =>
    simp only [template, Template.whole_append, Template.whole_text_cons] at h
    simp only [template, sites, Template.sites_append, Template.sites_text_cons, ihl h.1, ihr h.2]
  | unary o c m ih =>
    simp only [template, Template.whole_append] at h
    have ho : Template.sites (operatorText o) = [] := by cases o <;> rfl
    have hm : Template.sites (modifierText m) = [] := by cases m <;> rfl
    simp only [template, sites, Template.sites_append, ho, hm, ih h.1.2, List.nil_append,
      List.append_nil]
  | junction o cs ih =>
    by_cases hcs : cs.isEmpty
    · rw [List.isEmpty_iff.mp hcs]
      rfl
    · simp only [template, hcs, Bool.false_eq_true, ite_false, memberTemplates_eq_map,
        Template.whole_join] at h
      simp only [template, hcs, Bool.false_eq_true, ite_false, memberTemplates_eq_map, sites,
        Template.sites_join, sitesOfAll_eq_flatMap, List.flatMap_map, sites_memberTemplate]
      exact List.flatMap_congr fun c hc =>
        ih c hc ((whole_memberTemplate q c).mp (h _ (List.mem_map_of_mem hc)))
  | group c ih =>
    simp only [template] at h ⊢
    split at h
    · next hg => simp only [hg, ite_true, sites, ih h]
    · next hg =>
      rw [Template.whole_parenthesized] at h
      simp only [hg, Bool.false_eq_true, ite_false, sites, Template.sites_parenthesized, ih h]
  | sequence cs separator ih =>
    simp only [template, templates_eq_map] at h
    simp only [template, templates_eq_map, sites, sitesOfAll_eq_flatMap]
    exact sites_join_templates q separator cs ih h
  | join l r on outer ihl ihr ihon =>
    simp only [template, Template.whole_append, Template.whole_text_cons] at h
    simp only [template, sites, Template.sites_append, Template.sites_text_cons, ihl h.1.1,
      ihr h.1.2, ihon h.2]
  | select columns froms condition order limit offset distinct ihc ihf ihw iho =>
    rw [template_select] at h ⊢
    simp only [Template.whole_append, Template.whole_text_cons] at h
    obtain ⟨⟨⟨⟨hcolumns, hfroms⟩, hcondition⟩, horder⟩, _⟩ := h
    simp only [Template.sites_append, Template.sites_text_cons, sites_select,
      sites_columnsTemplate q columns ihc hcolumns, sites_fromsTemplate q columns froms ihf hfroms,
      sites_whereTemplate q condition ihw hcondition, sites_orderTemplate q order iho horder]
    exact List.append_nil _
  | insert t values => exact sites_insertTemplate q t values h
  | update t values condition ih =>
    rw [template_update, Template.whole_append] at h
    rw [template_update, Template.sites_append, sites_updateTemplate q t values h.1,
      sites_whereTemplate q condition ih h.2, sites_update]
  | delete t condition ih =>
    rw [template_delete, Template.whole_text_cons] at h
    rw [template_delete, Template.sites_text_cons, sites_whereTemplate q condition ih h,
      sites_delete]

/-! ### The names of a compiled clause -/

theorem compile_ok (q : Quoting) (c : Clause) (s : Statement) (h : c.compile q = .ok s) :
    ∃ texts b, Template.fill {} (c.template q) = .ok (texts, b) ∧ s.sql = String.join texts ∧
      s.params = b.params := by
  unfold compile at h
  cases hf : Template.fill {} (c.template q) with
  | error cause => simp [hf, Except.map] at h
  | ok r =>
    simp only [hf, Except.map, Except.ok.injEq] at h
    exact ⟨r.1, r.2, rfl, by rw [← h], by rw [← h]⟩

/-- A clause that renders has named its sites in turn: its SQL is its template with these names,
and its parameters are the values that the names stand for. -/
theorem compile_named (q : Quoting) (c : Clause) (s : Statement) (h : c.compile q = .ok s) :
    (c.template q).Whole ∧
      ∃ names, Site.Named [] c.sites names ∧
        s.sql = String.join (Template.written (c.template q) names) ∧
        s.params.entries = Site.carried c.sites names := by
  obtain ⟨texts, b, hfill, hsql, hparams⟩ := compile_ok q c s h
  obtain ⟨hwhole, names, hnames, htexts⟩ := Template.fill_ok {} b _ texts hfill
  rw [sites_template q c hwhole] at hnames
  obtain ⟨hnamed, hentries, _⟩ := Binder.nameSites_ok {} b _ names Binder.empty_good hnames
  refine ⟨hwhole, names, hnamed, by rw [hsql, htexts], ?_⟩
  rw [hparams, hentries]
  rfl

/--
Every site of a clause that renders is given a name, under which it stands in the SQL: a column
its own, a use of a key a numbered one. No two sites have the same name, and the parameters are
the names of the sites that carry a value, each with the value of its site, in the order of the
sites.
-/
theorem compile_names_sites (q : Quoting) (c : Clause) (s : Statement) (h : c.compile q = .ok s) :
    ∃ names : List String, List.Forall₂ Site.Fits c.sites names ∧ names.Nodup ∧
      s.params.entries = Site.carried c.sites names ∧
      Template.sites (c.template q) = c.sites ∧
      s.sql = String.join (Template.written (c.template q) names) := by
  obtain ⟨hwhole, names, hnamed, hsql, hentries⟩ := compile_named q c s h
  exact ⟨names, hnamed.fits, hnamed.nodup.1, hentries, sites_template q c hwhole, hsql⟩

/-- Three statements about games, one of them with a column named as a use of a key. -/
def gameBatch : Clause :=
  .sequence [.insert ⟨"games", [⟨"score_1", .integer, {}⟩]⟩ none,
    .update ⟨"games", [⟨"score", .integer, {}⟩]⟩ (some [("score", .int 7)])
      (some (.binary (.column { name := "score" }) .gt (.bind "score" (.int 5)))),
    .bind "score" .null] "; "

/-- The use of `score` in the condition is its second one, since a column has the name of the
first. -/
theorem compile_names_sites_gameBatch :
    gameBatch.compile .plain = .ok
        ⟨"INSERT INTO games (score_1) VALUES (:score_1); "
          ++ "UPDATE games SET score = :score WHERE score > :score_2; :score_3",
        ⟨[("score", .int 7), ("score_2", .int 5), ("score_3", .null)]⟩⟩ ∧
      ∃ names : List String, List.Forall₂ Site.Fits gameBatch.sites names ∧ names.Nodup ∧
        [("score", .int 7), ("score_2", .int 5), ("score_3", .null)]
          = Site.carried gameBatch.sites names ∧
        Template.sites (gameBatch.template .plain) = gameBatch.sites ∧
        "INSERT INTO games (score_1) VALUES (:score_1); "
            ++ "UPDATE games SET score = :score WHERE score > :score_2; :score_3"
          = String.join (Template.written (gameBatch.template .plain) names) :=
  ⟨rfl, compile_names_sites .plain gameBatch _ rfl⟩

end Clause

end BoundSql
