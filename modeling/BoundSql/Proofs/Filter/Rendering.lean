import BoundSql.Filter
import BoundSql.Proofs.Clause.Filtering
import BoundSql.Proofs.Clause.Selecting
import BoundSql.Proofs.Json.Fields
import BoundSql.Proofs.Parameter.Uses

/-!
# Filters in statements

Filters given one after the other become one condition: their comparisons in the given order with
AND between them, without parentheses. A null is written where it stands, every other value is
bound under its column, with a number that counts the values bound under this column so far.
-/

namespace BoundSql

theorem Template.fill_append (b c d : Binder) (t u : Template) (first rest : List String)
    (ht : fill b t = .ok (first, c)) (hu : fill c u = .ok (rest, d)) :
    fill b (t ++ u) = .ok (first ++ rest, d) := by
  rw [fill_append_eq_bind, ht, Except.bind, hu, Except.map]

theorem Template.exists_texts_of_sites (t : Template) (hs : sites t = []) (ht : t.Whole) :
    ∃ ss : List String, t = ss.map .text := by
  induction t with
  | nil => exact ⟨[], rfl⟩
  | cons p t ih =>
    cases p with
    | text s =>
      obtain ⟨ss, hss⟩ := ih hs ((whole_text_cons s t).mp ht)
      exact ⟨s :: ss, by rw [hss, List.map_cons]⟩
    | refuse cause => exact absurd ht (not_whole_refuse cause t)
    | _ => cases hs

theorem Binder.nextNumber_of_used (b : Binder) (count : String → Nat) (key : String) (hb : b.Good)
    (hused : UsedUpTo [] count b.taken) : b.nextNumber key = count key + 1 := by
  rw [eq_nth_of_isLeast [] b.taken count key _ hused (nextNumber_isLeast b key hb), nth_free_nil]

namespace Filter

/-! ### Texts -/

/-- How many of the filters bind a value under a column. -/
def boundCount (fs : List Filter) (column : String) : Nat :=
  fs.countP fun f => decide (f.column = column) && !f.value.isNull

/-- The name for the value of a filter that comes after some others. -/
def placeholderName (before : List Filter) (f : Filter) : String :=
  f.column ++ "_" ++ toString (boundCount before f.column + 1)

/-- What a filter says of the column that it compares. -/
def predicateText (before : List Filter) (f : Filter) : String :=
  match f.value, f.comparison with
  | .null, .eq => "IS NULL"
  | .null, .ne => "IS NOT NULL"
  | .null, o => o.operator.symbol ++ " NULL"
  | _, o => o.operator.symbol ++ " :" ++ placeholderName before f

/-- A filter on a source as a statement writes it after some others. -/
def text (q : Quoting) (s : Source) (before : List Filter) (f : Filter) : String :=
  q.quote s.name ++ "." ++ q.quote f.column ++ " " ++ predicateText before f

/-- Filters one after the other, after some others. -/
def textsAfter (q : Quoting) (s : Source) (before : List Filter) : List Filter → List String
  | [] => []
  | f :: fs => text q s before f :: textsAfter q s (before ++ [f]) fs

/-- The parameters of filters one after the other, after some others. -/
def paramsAfter (before : List Filter) : List Filter → List (String × Scalar)
  | [] => []
  | f :: fs =>
    (if f.value.isNull then [] else [(placeholderName before f, f.value)])
      ++ paramsAfter (before ++ [f]) fs

/-! ### Conditions -/

/-- The comparison that a filter on a source stands for. -/
def comparisonOn (s : Source) (f : Filter) : Clause :=
  ColumnRef.compare { name := f.column, source := some s } f.comparison.operator (.value f.value)

theorem toClause_of_declared (s : Source) (f : Filter) (h : s.base.hasColumn f.column = true) :
    f.toClause s = .ok (f.comparisonOn s) := by
  rw [toClause, Source.column, if_pos h]
  rfl

theorem mapM_toClause (s : Source) (fs : List Filter)
    (h : ∀ f ∈ fs, s.base.hasColumn f.column = true) :
    fs.mapM (fun f => f.toClause s) = .ok (fs.map (comparisonOn s)) := by
  induction fs with
  | nil => rfl
  | cons f fs ih =>
    obtain ⟨hf, hfs⟩ := List.forall_mem_cons.mp h
    rw [List.mapM_cons, toClause_of_declared s f hf, ih hfs]
    rfl

theorem template_comparisonOn (q : Quoting) (s : Source) (f : Filter) :
    (f.comparisonOn s).template q
      = [.text (q.quote s.name ++ "." ++ q.quote f.column),
          .text (" " ++ (ColumnRef.comparing f.comparison.operator (.value f.value)).symbol ++ " "),
          if f.value.isNull then .text "NULL" else .bind f.column f.value] := by
  cases hv : f.value <;>
    simp [comparisonOn, ColumnRef.compare, ColumnRef.operandClause, Clause.template,
      Quoting.quoteColumn, ColumnRef.ownerName, Scalar.isNull, hv]

/-! ### Filling -/

/-- The binder has been used for the values of some filters and for nothing else. -/
structure Served (before : List Filter) (b : Binder) : Prop where
  good : b.Good
  used : Binder.UsedUpTo [] (boundCount before) b.taken

theorem served_empty : Served [] {} where
  good := Binder.empty_good
  used := Binder.usedUpTo_self [] [] fun _ => Iff.rfl

theorem boundCount_append (before : List Filter) (f : Filter) :
    boundCount (before ++ [f]) = fun column =>
      boundCount before column + if f.column = column ∧ f.value.isNull = false then 1 else 0 := by
  funext column
  simp [boundCount, List.countP_append, List.countP_cons]

theorem Served.null {before : List Filter} {b : Binder} (h : Served before b) (f : Filter)
    (hf : f.value.isNull = true) : Served (before ++ [f]) b where
  good := h.good
  used := by
    have hcount : boundCount (before ++ [f]) = boundCount before := by
      rw [boundCount_append, hf]
      simp
    rw [hcount]
    exact h.used

theorem Served.bind {before : List Filter} {b : Binder} (h : Served before b) (f : Filter)
    (hf : f.value.isNull = false) :
    (b.bind f.column f.value).1 = placeholderName before f ∧
      (b.bind f.column f.value).2.params.entries
        = b.params.entries ++ [(placeholderName before f, f.value)] ∧
      Served (before ++ [f]) (b.bind f.column f.value).2 := by
  have hnext := b.nextNumber_of_used (boundCount before) f.column h.good h.used
  have hname : (b.bind f.column f.value).1 = placeholderName before f := by
    rw [Binder.bind, hnext]
    rfl
  have hbound : b.nameSite (.bind f.column f.value)
      = .ok (placeholderName before f, (b.bind f.column f.value).2) :=
    congrArg Except.ok (Prod.ext hname rfl)
  obtain ⟨_, htaken, hentries, hgood⟩ := Binder.nameSite_ok b _ _ _ h.good hbound
  refine ⟨hname, hentries, hgood, ?_⟩
  have hused := Binder.usedUpTo_cons [] b.taken (boundCount before) f.column h.used
  rw [Binder.nth_free_nil] at hused
  rw [htaken, boundCount_append, hf]
  simp only [and_true]
  exact hused

/-- One filter is written as its text, and binds its value unless it is null. -/
theorem fill_comparisonOn (q : Quoting) (s : Source) (before : List Filter) (b : Binder)
    (h : Served before b) (f : Filter) :
    ∃ ss b', Template.fill b ((f.comparisonOn s).template q) = .ok (ss, b') ∧
      String.join ss = text q s before f ∧
      b'.params.entries = b.params.entries ++ paramsAfter before [f] ∧
      Served (before ++ [f]) b' := by
  rw [template_comparisonOn]
  cases hv : f.value.isNull with
  | true =>
    refine ⟨_, b, rfl, ?_, ?_, h.null f hv⟩
    · cases hvalue : f.value <;> rw [hvalue] at hv <;> cases hv
      cases hc : f.comparison <;>
        simp [text, predicateText, hvalue, hc, ColumnRef.comparing, Comparison.operator,
          Operator.symbol, ← String.toList_inj]
    · simp [paramsAfter, hv]
  | false =>
    obtain ⟨hname, hentries, hserved⟩ := h.bind f hv
    refine ⟨[q.quote s.name ++ "." ++ q.quote f.column,
        " " ++ (ColumnRef.comparing f.comparison.operator (.value f.value)).symbol ++ " ",
        Binder.placeholder (b.bind f.column f.value).1], (b.bind f.column f.value).2, rfl, ?_, ?_,
      hserved⟩
    · rw [hname]
      cases hvalue : f.value <;> rw [hvalue] at hv <;> cases hv <;>
        simp [text, predicateText, hvalue, ColumnRef.comparing, Binder.placeholder,
          ← String.toList_inj]
    · simp [hentries, paramsAfter, hv]

/-- Filters one after the other are written as their texts, and bind their values in turn. -/
theorem fill_comparisons (q : Quoting) (s : Source) (before : List Filter) (b : Binder)
    (h : Served before b) (fs : List Filter) :
    ∃ ss b', Template.fill b (Template.join " AND " (fs.map fun f => (f.comparisonOn s).template q))
        = .ok (ss, b') ∧
      String.join ss = " AND ".intercalate (textsAfter q s before fs) ∧
      b'.params.entries = b.params.entries ++ paramsAfter before fs := by
  -- The filters that the binder has served carry the induction: each one joins them.
  induction fs generalizing before b with
  | nil => exact ⟨[], b, rfl, rfl, (List.append_nil _).symm⟩
  | cons f fs ih =>
    obtain ⟨first, c, hfirst, htext, hentries, hserved⟩ := fill_comparisonOn q s before b h f
    obtain ⟨rest, b', hrest, htexts, hall⟩ := ih (before ++ [f]) c hserved
    have hparams : paramsAfter before (f :: fs)
        = paramsAfter before [f] ++ paramsAfter (before ++ [f]) fs := by
      simp [paramsAfter]
    cases fs with
    | nil =>
      refine ⟨first, c, hfirst, ?_, hentries⟩
      rw [htext]
      simp [textsAfter]
    | cons g fs =>
      have hseparator : Template.fill c (.text " AND " ::
          Template.join " AND " ((g :: fs).map fun f => (f.comparisonOn s).template q))
            = .ok (" AND " :: rest, b') := by
        rw [Template.fill, Template.fillPiece]
        simp only [hrest]
      have hpair : textsAfter q s before (f :: g :: fs)
          = text q s before f :: text q s (before ++ [f]) g
            :: textsAfter q s (before ++ [f] ++ [g]) fs := rfl
      refine ⟨first ++ " AND " :: rest, b', Template.fill_append b c b' _ _ _ _ hfirst hseparator,
        ?_, ?_⟩
      · rw [String.join_append, String.join_cons, htext, htexts, hpair,
          String.intercalate_cons_cons, textsAfter, String.append_assoc]
      · rw [hall, hentries, hparams, List.append_assoc]

/-! ### Statements -/

theorem comparisonOn_ne_junction (s : Source) (f : Filter) (members : List Clause) :
    f.comparisonOn s ≠ .junction .and members := nofun

/-- Comparisons joined by AND stand in the condition without parentheses. -/
theorem whereTemplate_comparisons (q : Quoting) (s : Source) (fs : List Filter) (h : fs ≠ []) :
    Clause.whereTemplate q (Clause.conjoinAll none (fs.map (comparisonOn s)))
      = .text " WHERE "
        :: Template.join " AND " (fs.map fun f => (f.comparisonOn s).template q) := by
  match fs, h with
  | [f], _ => rfl
  | f :: g :: fs, _ =>
    have hmembers : (Clause.memberTemplate q ∘ Clause.asMember) ∘ comparisonOn s
        = fun f => (f.comparisonOn s).template q := by
      funext f
      rfl
    have hall : Clause.template q (.allOf ((f :: g :: fs).map (comparisonOn s)))
        = Template.join " AND " ((f :: g :: fs).map fun f => (f.comparisonOn s).template q) := by
      rw [Clause.allOf, Clause.joinedBy, Clause.template, if_neg (by simp),
        Clause.memberTemplates_eq_map, List.map_map, List.map_map, hmembers]
      rfl
    rw [List.map_cons, List.map_cons,
      Clause.conjoinAll_pair _ _ _ (comparisonOn_ne_junction s f), ← List.map_cons,
      ← List.map_cons, Clause.whereTemplate, hall]

theorem compile_whereAll (q : Quoting) (s : Source) (fs : List Filter) (hfs : fs ≠ [])
    (x : Filtered) (hx : x.condition = none) (head tail : List String)
    (hhead : x.head q = head.map .text) (htail : x.tail q = tail.map .text) :
    (x.whereAll (fs.map (comparisonOn s))).toClause.compile q
      = .ok ⟨String.join head ++ " WHERE " ++ " AND ".intercalate (textsAfter q s [] fs)
          ++ String.join tail, ⟨paramsAfter [] fs⟩⟩ := by
  obtain ⟨ss, b, hfill, htext, hentries⟩ := fill_comparisons q s [] {} served_empty fs
  have hcondition : Template.fill {} (.text " WHERE " :: Template.join " AND "
      (fs.map fun f => (f.comparisonOn s).template q)) = .ok (" WHERE " :: ss, b) := by
    rw [Template.fill, Template.fillPiece]
    simp only [hfill]
  obtain ⟨hc, hh, ht⟩ := x.whereAll_parts q (fs.map (comparisonOn s))
  have hall : Template.fill {} ((x.whereAll (fs.map (comparisonOn s))).toClause.template q)
      = .ok (head ++ " WHERE " :: ss ++ tail, b) := by
    rw [Filtered.template_toClause, hc, hh, ht, hx, whereTemplate_comparisons q s fs hfs, hhead,
      htail]
    exact Template.fill_append _ _ _ _ _ _ _
      (Template.fill_append _ _ _ _ _ _ _ (Template.fill_texts _ _) hcondition)
      (Template.fill_texts _ _)
  rw [Clause.compile, hall]
  have hparams : b.params = ⟨paramsAfter [] fs⟩ := congrArg Params.mk hentries
  simp only [Except.map, hparams, String.join_append, String.join_cons, htext, String.append_assoc]

/-- The select without what stands after its condition. -/
def unended (x : Select) : Select := { x with order := none, limit := none, offset := none }

theorem parts_of_select (q : Quoting) (x : Select) (st : Statement) (hx : x.condition = none)
    (hsites : x.toClause.sites = []) (h : x.toClause.compile q = .ok st) :
    ∃ head tail : List String,
      (Filtered.select x).head q = head.map .text ∧ (Filtered.select x).tail q = tail.map .text ∧
      st = ⟨String.join head ++ String.join tail, .empty⟩ ∧
      (unended x).toClause.compile q = .ok ⟨String.join head, .empty⟩ := by
  have hwhole := (Clause.compile_named q x.toClause st h).1
  have hnone := Clause.sites_template q x.toClause hwhole
  have hparts := (Filtered.select x).template_toClause q
  have hcondition : Clause.whereTemplate q (Filtered.select x).condition = [] := by
    rw [Filtered.condition, hx]
    rfl
  rw [hcondition, List.append_nil, Filtered.toClause] at hparts
  rw [hparts, hsites, Template.sites_append, List.append_eq_nil_iff] at hnone
  rw [hparts, Template.whole_append] at hwhole
  obtain ⟨head, hhead⟩ := Template.exists_texts_of_sites _ hnone.1 hwhole.1
  obtain ⟨tail, htail⟩ := Template.exists_texts_of_sites _ hnone.2 hwhole.2
  refine ⟨head, tail, hhead, htail, ?_, ?_⟩
  · rw [hhead, htail, ← List.map_append] at hparts
    rw [Clause.compile_of_texts q _ _ hparts, String.join_append] at h
    exact (Except.ok.inj h).symm
  · have hbefore := (Filtered.select (unended x)).template_toClause q
    rw [Filtered.condition, show (unended x).condition = none from hx] at hbefore
    have hunended : (unended x).toClause.template q = (head ++ [""]).map .text := by
      rw [List.map_append, ← hhead]
      exact hbefore.trans (congrArg (· ++ [Piece.text ""]) (List.append_nil _))
    rw [Clause.compile_of_texts q _ _ hunended]
    simp

theorem sites_select_source (s : Source) : s.select.toClause.sites = [] := by
  rw [Clause.select_source, Select.toClause, Clause.sites_select]
  simp [Clause.sites, Clause.whereSites, Clause.orderSites]

theorem toClause_whereAll_select (x : Select) (cs : List Clause) :
    ((Filtered.select x).whereAll cs).toClause = (cs.foldl Select.where x).toClause := by
  induction cs generalizing x with
  | nil => rfl
  | cons c cs ih => exact ih (x.where c)

theorem toClause_whereAll_delete (d : Delete) (cs : List Clause) :
    ((Filtered.delete d).whereAll cs).toClause = (cs.foldl Delete.where d).toClause := by
  induction cs generalizing d with
  | nil => rfl
  | cons c cs ih => exact ih (d.where c)

/-- A select without values of its own keeps what it is written as, around the condition. -/
theorem compile_where_select (q : Quoting) (s : Source) (fs : List Filter) (hfs : fs ≠ [])
    (x : Select) (st : Statement) (hx : x.condition = none) (hsites : x.toClause.sites = [])
    (h : x.toClause.compile q = .ok st) :
    ∃ head tail, st = ⟨head ++ tail, .empty⟩ ∧
      (unended x).toClause.compile q = .ok ⟨head, .empty⟩ ∧
      ((fs.map (comparisonOn s)).foldl Select.where x).toClause.compile q
        = .ok ⟨head ++ " WHERE " ++ " AND ".intercalate (textsAfter q s [] fs) ++ tail,
            ⟨paramsAfter [] fs⟩⟩ := by
  obtain ⟨head, tail, hhead, htail, hst, hunended⟩ := parts_of_select q x st hx hsites h
  refine ⟨String.join head, String.join tail, hst, hunended, ?_⟩
  rw [← toClause_whereAll_select]
  exact compile_whereAll q s fs hfs (.select x) hx head tail hhead htail

/-- The select of a source ends with the condition. -/
theorem compile_where_source (q : Quoting) (s : Source) (fs : List Filter) (hfs : fs ≠ []) :
    ∃ head, s.select.toClause.compile q = .ok ⟨head, .empty⟩ ∧
      ((fs.map (comparisonOn s)).foldl Select.where s.select).toClause.compile q
        = .ok ⟨head ++ " WHERE " ++ " AND ".intercalate (textsAfter q s [] fs),
            ⟨paramsAfter [] fs⟩⟩ := by
  have hcompile := Clause.compile_select_source q s
  have hunended : unended s.select = s.select := by
    rw [Clause.select_source]
    rfl
  obtain ⟨head, tail, hst, hhead, hall⟩ := compile_where_select q s fs hfs s.select _
    (by rw [Clause.select_source]) (sites_select_source s) hcompile
  rw [hunended, hcompile, hst] at hhead
  -- A source alone has no order and no limits, so nothing stands behind the condition.
  have htail : tail = "" := by
    have hsql := congrArg Statement.sql (Except.ok.inj hhead)
    simpa using hsql
  refine ⟨head, ?_, ?_⟩
  · rw [hcompile, hst, hhead]
  · rw [hall, htail, String.append_empty]

theorem compile_where_delete (q : Quoting) (t : Table) (fs : List Filter) (hfs : fs ≠ []) :
    ((fs.map (comparisonOn (.table t))).foldl Delete.where { table := t }).toClause.compile q
      = .ok ⟨"DELETE FROM " ++ q.quote t.name ++ " WHERE "
          ++ " AND ".intercalate (textsAfter q (.table t) [] fs), ⟨paramsAfter [] fs⟩⟩ := by
  rw [← toClause_whereAll_delete, compile_whereAll q (.table t) fs hfs (.delete { table := t }) rfl
    ["DELETE FROM " ++ q.quote t.name] [] rfl rfl]
  simp

/--
Filters that are read and whose columns are declared become a condition of exactly their texts, in
the given order with AND between them, and the parameters are exactly their values that are not
null, in this order and under the names that the texts show. A select without values of its own
keeps what it is written as, with the condition before the order and the limits; a delete ends with
the condition.
-/
theorem compile_filters (q : Quoting) (s : Source) (texts : List String) (fs : List Filter)
    (hne : texts ≠ []) (hparse : texts.mapM parse = .ok fs)
    (hdeclared : ∀ f ∈ fs, s.base.hasColumn f.column = true) :
    ∃ cs, fs.mapM (fun f => f.toClause s) = .ok cs ∧
      (∀ (x : Select) (st : Statement), x.condition = none → x.toClause.sites = [] →
        x.toClause.compile q = .ok st →
        ∃ head tail, st = ⟨head ++ tail, .empty⟩ ∧
          (unended x).toClause.compile q = .ok ⟨head, .empty⟩ ∧
          (cs.foldl Select.where x).toClause.compile q
            = .ok ⟨head ++ " WHERE " ++ " AND ".intercalate (textsAfter q s [] fs) ++ tail,
                ⟨paramsAfter [] fs⟩⟩) ∧
      (∃ head, s.select.toClause.compile q = .ok ⟨head, .empty⟩ ∧
        (cs.foldl Select.where s.select).toClause.compile q
          = .ok ⟨head ++ " WHERE " ++ " AND ".intercalate (textsAfter q s [] fs),
              ⟨paramsAfter [] fs⟩⟩) ∧
      ∀ t, s = .table t →
        (cs.foldl Delete.where { table := t }).toClause.compile q
          = .ok ⟨"DELETE FROM " ++ q.quote t.name ++ " WHERE "
              ++ " AND ".intercalate (textsAfter q s [] fs), ⟨paramsAfter [] fs⟩⟩ := by
  have hfs : fs ≠ [] := by
    cases texts with
    | nil => exact absurd rfl hne
    | cons text texts =>
      simp only [List.mapM_cons, bind_eq_ok, pure_eq_ok] at hparse
      obtain ⟨f, _, rest, _, rfl⟩ := hparse
      exact List.cons_ne_nil f rest
  refine ⟨fs.map (comparisonOn s), mapM_toClause s fs hdeclared, compile_where_select q s fs hfs,
    compile_where_source q s fs hfs, ?_⟩
  rintro t rfl
  exact compile_where_delete q t fs hfs

def players : Table := ⟨"players", [⟨"id", .integer, {}⟩, ⟨"email", .text, {}⟩]⟩

def playerFilters : List Filter :=
  [⟨"id", .ge, .int 10⟩, ⟨"email", .like, .text "Do%"⟩, ⟨"email", .eq, .null⟩, ⟨"id", .ne, .int 20⟩]

theorem compile_filters_players :
    ["id>=10", "email~Do%", " email = Null", "id!=20"].mapM parse = .ok playerFilters ∧
    (∀ f ∈ playerFilters, players.hasColumn f.column = true) ∧
    ∃ cs, playerFilters.mapM (fun f => f.toClause (.table players)) = .ok cs ∧
      (cs.foldl Delete.where { table := players }).toClause.compile .plain
        = .ok ⟨"DELETE FROM players WHERE players.id >= :id_1 AND players.email LIKE :email_1"
              ++ " AND players.email IS NULL AND players.id != :id_2",
            ⟨[("id_1", .int 10), ("email_1", .text "Do%"), ("id_2", .int 20)]⟩⟩ := by
  have hparse : ["id>=10", "email~Do%", " email = Null", "id!=20"].mapM parse
      = .ok playerFilters := rfl
  have hdeclared : ∀ f ∈ playerFilters, players.hasColumn f.column = true := by decide
  obtain ⟨cs, hcs, _, _, hdelete⟩ :=
    compile_filters .plain (.table players) _ playerFilters (List.cons_ne_nil _ _) hparse hdeclared
  refine ⟨hparse, hdeclared, cs, hcs, ?_⟩
  rw [hdelete players rfl]
  rfl

end Filter

end BoundSql
