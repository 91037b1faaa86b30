import BoundSql.Proofs.Clause.Sites
import BoundSql.Proofs.Schema.Equality

/-!
# Selecting all columns of a source

The SELECT of a table or an alias lists the columns in declared order, each under the name of the
source. What it selects from are the distinct owners of these columns: the source once, as long as
the source is the same as itself. A table with a NaN among its defaults is not, so it is written
once for each column; and where there is no column, there is no owner either.
-/

namespace BoundSql

/-! ### Templates of texts -/

namespace Template

theorem join_texts (separator : String) (ss : List String) :
    join separator (ss.map fun s => [.text s]) = (ss.intersperse separator).map .text := by
  induction ss with
  | nil => rfl
  | cons s ss ih =>
    cases ss with
    | nil => rfl
    | cons t ts =>
      rw [List.intersperse_cons_cons, List.map_cons]
      have hrest := congrArg (fun u => .text s :: .text separator :: u) ih
      exact hrest

theorem join_intersperse (separator : String) (ss : List String) :
    String.join (ss.intersperse separator) = separator.intercalate ss := by
  induction ss with
  | nil => rfl
  | cons s ss ih =>
    cases ss with
    | nil => simp
    | cons t ts =>
      rw [List.intersperse_cons_cons, String.join_cons, String.join_cons, ih,
        String.intercalate_cons_cons, String.append_assoc]

theorem fill_texts (b : Binder) (ss : List String) : fill b (ss.map .text) = .ok (ss, b) := by
  induction ss with
  | nil => rfl
  | cons s ss ih => simp only [List.map_cons, fill, fillPiece, ih]

end Template

/-! ### Items that are columns -/

theorem Select.ofItems_columns (cs : List ColumnRef) :
    Select.ofItems (cs.map .column) = { columns := cs.map .column } := by
  have hfold : ∀ x : Select, (cs.map Clause.column).foldl Select.column x
      = { x with columns := x.columns ++ cs.map .column } := by
    induction cs with
    | nil => intro x; simp
    | cons c cs ih =>
      intro x
      rw [List.map_cons, List.foldl_cons, ih]
      simp [Select.column]
  exact hfold {}

namespace Clause

theorem compile_of_texts (q : Quoting) (c : Clause) (ss : List String)
    (h : c.template q = ss.map .text) : c.compile q = .ok ⟨String.join ss, .empty⟩ := by
  rw [compile, h, Template.fill_texts]
  rfl

/-! ### Owners -/

theorem same_toClause (s : Source) : s.toClause.same s.toClause = !s.base.hasNaN := by
  cases s with
  | table t => exact t.same_self
  | aliased a => exact a.same_self

theorem foldl_addOwner_same (o : Owner) (n : Nat) (h : o.toClause.same o.toClause = true) :
    (List.replicate n o).foldl addOwner [o] = [o] := by
  have hadd : addOwner [o] o = [o] := by
    rw [addOwner, List.any_cons, h]
    rfl
  induction n with
  | zero => rfl
  | succ n ih => rw [List.replicate_succ, List.foldl_cons, hadd, ih]

theorem foldl_addOwner_distinct (o : Owner) (m n : Nat)
    (h : o.toClause.same o.toClause = false) :
    (List.replicate n o).foldl addOwner (List.replicate m o) = List.replicate (m + n) o := by
  induction n generalizing m with
  | zero => rfl
  | succ n ih =>
    have hadd : addOwner (List.replicate m o) o = List.replicate (m + 1) o := by
      have hnone : ((List.replicate m o).any fun p => p.toClause.same o.toClause) = false := by
        rw [List.any_eq_false]
        intro p hp
        rw [List.eq_of_mem_replicate hp, h]
        exact Bool.false_ne_true
      rw [addOwner, hnone, List.replicate_succ']
      rfl
    rw [List.replicate_succ, List.foldl_cons, hadd, ih]
    congr 1
    omega

/-- How often a source is written when all its columns are selected. -/
def mentionCount (s : Source) : Nat :=
  if s.base.hasNaN then s.base.columns.length else min 1 s.base.columns.length

theorem ownersOf_columns (s : Source) :
    ownersOf (s.columns.map .column) = List.replicate (mentionCount s) (.source s) := by
  have hrefs : columnRefsOfAll (s.columns.map .column) = s.columns := by
    rw [columnRefsOfAll_eq_flatMap, List.flatMap_map]
    exact List.flatMap_singleton' s.columns
  have howners : s.columns.filterMap Owner.ofColumn?
      = List.replicate s.base.columns.length (.source s) := by
    rw [Source.columns, Table.columnNames, List.map_map, List.filterMap_map]
    generalize s.base.columns = cs
    induction cs with
    | nil => rfl
    | cons c cs ih =>
      rw [List.length_cons, List.replicate_succ, ← ih]
      rfl
  have hsame : (Owner.source s).toClause.same (Owner.source s).toClause = !s.base.hasNaN :=
    same_toClause s
  rw [ownersOf, hrefs, howners, mentionCount]
  cases hnan : s.base.hasNaN with
  | true =>
    rw [hnan] at hsame
    have hall := foldl_addOwner_distinct _ 0 s.base.columns.length hsame
    rw [Nat.zero_add] at hall
    exact hall
  | false =>
    rw [hnan] at hsame
    cases hn : s.base.columns.length with
    | zero => rfl
    | succ n =>
      have hone := foldl_addOwner_same _ n hsame
      have hmin : min 1 (n + 1) = 1 := by omega
      rw [List.replicate_succ, List.foldl_cons, hmin]
      exact hone

/-! ### The statement -/

def columnTexts (q : Quoting) (s : Source) : List String :=
  s.base.columnNames.map fun name => q.quote s.name ++ "." ++ q.quote name

/-- What is selected from, when the source is written some number of times. -/
def fromText (q : Quoting) (s : Source) (n : Nat) : String :=
  if n = 0 then "" else " FROM " ++ ", ".intercalate (List.replicate n (sourceText q s))

theorem columnsTemplate_refs (q : Quoting) (cs : List ColumnRef) :
    ∃ ss : List String, columnsTemplate q (cs.map .column) = ss.map .text ∧
      String.join ss = if cs = [] then "*" else ", ".intercalate (cs.map q.quoteColumn) := by
  have htexts : (cs.map Clause.column).map (template q)
      = (cs.map q.quoteColumn).map fun text => [.text text] := by
    rw [List.map_map, List.map_map]
    rfl
  rw [columnsTemplate, List.isEmpty_map, htexts, Template.join_texts]
  by_cases h : cs = []
  · refine ⟨["*"], ?_, ?_⟩
    · rw [h]
      rfl
    · rw [if_pos h]
      rfl
  · refine ⟨(cs.map q.quoteColumn).intersperse ", ", ?_, ?_⟩
    · rw [List.isEmpty_eq_false_iff.mpr h]
      rfl
    · rw [if_neg h, Template.join_intersperse]

theorem quoteColumn_columns (q : Quoting) (s : Source) :
    s.columns.map q.quoteColumn = columnTexts q s := by
  rw [columnTexts, Source.columns, List.map_map]
  rfl

theorem columnsTemplate_columns (q : Quoting) (s : Source) :
    ∃ ss : List String, columnsTemplate q (s.columns.map .column) = ss.map .text ∧
      String.join ss
        = if s.base.columns = [] then "*" else ", ".intercalate (columnTexts q s) := by
  obtain ⟨ss, htemplate, htext⟩ := columnsTemplate_refs q s.columns
  have hempty : s.columns = [] ↔ s.base.columns = [] := by
    simp [Source.columns, Table.columnNames]
  refine ⟨ss, htemplate, ?_⟩
  rw [htext, quoteColumn_columns]
  simp only [hempty]

theorem fromsTemplate_columns (q : Quoting) (s : Source) :
    ∃ ss : List String, fromsTemplate q (s.columns.map .column) [] = ss.map .text ∧
      String.join ss = fromText q s (mentionCount s) := by
  rw [fromsTemplate, List.isEmpty_nil, if_pos rfl, ownersOf_columns, List.map_replicate]
  generalize mentionCount s = n
  cases n with
  | zero => exact ⟨[], rfl, rfl⟩
  | succ n =>
    have htexts : List.replicate (n + 1) [Piece.text (ownerText q (.source s))]
        = (List.replicate (n + 1) (sourceText q s)).map fun text => [.text text] := by
      rw [List.map_replicate]
      rfl
    refine ⟨" FROM " :: (List.replicate (n + 1) (sourceText q s)).intersperse ", ", ?_, ?_⟩
    · rw [fromTemplate, htexts, Template.join_texts]
      rfl
    · rw [String.join_cons, Template.join_intersperse, fromText, if_neg (Nat.succ_ne_zero n)]

theorem compile_source (q : Quoting) (s : Source) :
    s.toClause.compile q = .ok ⟨sourceText q s, .empty⟩ := by
  have htemplate : s.toClause.template q = [sourceText q s].map .text := by
    cases s <;> rfl
  rw [compile_of_texts q _ _ htemplate]
  simp

theorem select_source (s : Source) : s.select = { columns := s.columns.map .column } := by
  cases s <;> rfl

theorem compile_select_source (q : Quoting) (s : Source) :
    s.select.toClause.compile q
      = .ok ⟨"SELECT " ++ (if s.base.columns = [] then "*" else ", ".intercalate (columnTexts q s))
          ++ fromText q s (mentionCount s), .empty⟩ := by
  obtain ⟨columns, hcolumns, hlist⟩ := columnsTemplate_columns q s
  obtain ⟨froms, hfroms, hfrom⟩ := fromsTemplate_columns q s
  have htemplate : s.select.toClause.template q
      = ("SELECT " :: columns ++ froms ++ [""]).map .text := by
    rw [select_source, Select.toClause, template_select, hcolumns, hfroms, List.map_append,
      List.map_append, List.map_cons]
    simp only [whereTemplate, orderTemplate, List.append_nil]
    rfl
  rw [compile_of_texts q _ _ htemplate, ← hlist, ← hfrom]
  simp [String.append_assoc]

/-- The SELECT as it is meant: every column, and the source once. -/
def selectText (q : Quoting) (s : Source) : String :=
  "SELECT " ++ ", ".intercalate (columnTexts q s) ++ " FROM " ++ sourceText q s

theorem intercalate_replicate_eq_iff (text : String) (n : Nat) (hn : n ≠ 0) :
    ", ".intercalate (List.replicate n text) = text ↔ n = 1 := by
  match n, hn with
  | 1, _ => simp
  | n + 2, _ =>
    constructor
    · intro h
      rw [List.replicate_succ, List.replicate_succ, String.intercalate_cons_cons] at h
      have hlength := congrArg String.length h
      simp only [String.length_append] at hlength
      have hcomma : ", ".length = 2 := rfl
      omega
    · intro h
      omega

theorem mentionCount_eq_zero_iff (s : Source) : mentionCount s = 0 ↔ s.base.columns = [] := by
  rw [← List.length_eq_zero_iff, mentionCount]
  cases s.base.hasNaN with
  | true => exact Iff.rfl
  | false =>
    simp only [Bool.false_eq_true, ite_false]
    omega

theorem mentionCount_eq_one_iff (s : Source) : mentionCount s = 1 ↔
    s.base.columns ≠ [] ∧ (s.base.hasNaN = false ∨ s.base.columns.length = 1) := by
  rw [ne_eq, ← List.length_eq_zero_iff, mentionCount]
  cases s.base.hasNaN with
  | true =>
    simp only [ite_true, Bool.true_eq_false, false_or]
    omega
  | false =>
    simp only [Bool.false_eq_true, ite_false, true_or, and_true]
    omega

theorem eq_selectText_iff (q : Quoting) (s : Source) :
    "SELECT " ++ (if s.base.columns = [] then "*" else ", ".intercalate (columnTexts q s))
        ++ fromText q s (mentionCount s) = selectText q s ↔ mentionCount s = 1 := by
  by_cases h : s.base.columns = []
  · have hnone := (mentionCount_eq_zero_iff s).mpr h
    constructor
    · intro heq
      rw [if_pos h, hnone, selectText, columnTexts, Table.columnNames, h] at heq
      have hchars := congrArg String.toList heq
      simp [fromText] at hchars
    · intro hone
      omega
  · have hsome : mentionCount s ≠ 0 := fun hnone => h ((mentionCount_eq_zero_iff s).mp hnone)
    rw [if_neg h, fromText, if_neg hsome, selectText, ← String.append_assoc,
      String.append_right_inj]
    exact intercalate_replicate_eq_iff _ _ hsome

/--
The SELECT of a source lists its columns in declared order, each under the name of the source, and
then the source once, with no parameters, exactly when there is a column and no default is a NaN
or the column is the only one. Without a column it selects everything from nothing; and a source
with a NaN among its defaults is written once for each column. The source is written as it is
rendered alone.
-/
theorem compile_selects_all (q : Quoting) (s : Source) :
    (s.select.toClause.compile q = .ok ⟨selectText q s, .empty⟩ ↔
      s.base.columns ≠ [] ∧ (s.base.hasNaN = false ∨ s.base.columns.length = 1)) ∧
    (s.base.columns = [] → s.select.toClause.compile q = .ok ⟨"SELECT *", .empty⟩) ∧
    (s.base.columns ≠ [] → s.base.hasNaN = true → s.select.toClause.compile q
      = .ok ⟨"SELECT " ++ ", ".intercalate (columnTexts q s) ++ " FROM "
          ++ ", ".intercalate (List.replicate s.base.columns.length (sourceText q s)),
          .empty⟩) ∧
    s.toClause.compile q = .ok ⟨sourceText q s, .empty⟩ := by
  rw [compile_select_source]
  refine ⟨?_, fun h => ?_, fun h hnan => ?_, compile_source q s⟩
  · rw [← mentionCount_eq_one_iff, ← eq_selectText_iff q]
    simp
  · have hnone := (mentionCount_eq_zero_iff s).mpr h
    rw [if_pos h, hnone]
    rfl
  · have hcount : mentionCount s = s.base.columns.length := by rw [mentionCount, hnan, if_pos rfl]
    have hsome : s.base.columns.length ≠ 0 := fun hnone => h (List.length_eq_zero_iff.mp hnone)
    rw [if_neg h, hcount, fromText, if_neg hsome, ← String.append_assoc]

/-- Readings whose level is not a number unless it is given. -/
def readings : Table :=
  ⟨"readings", [⟨"at", .integer, {}⟩, ⟨"level", .float, { default := some (.float .nan) }⟩]⟩

theorem compile_selects_all_readings :
    ((Source.aliased ⟨⟨"games", [⟨"name", .text, {}⟩, ⟨"score", .integer, {}⟩]⟩, "g"⟩
        ).select.toClause.compile .plain
      = .ok ⟨"SELECT g.name, g.score FROM games AS g", .empty⟩) ∧
    (Source.table ⟨"marks", []⟩).select.toClause.compile .plain = .ok ⟨"SELECT *", .empty⟩ ∧
    (readings.columns ≠ [] ∧ readings.hasNaN = true ∧
      (Source.table readings).select.toClause.compile .plain
        = .ok ⟨"SELECT readings.at, readings.level FROM readings, readings", .empty⟩) := by
  have hcolumns : readings.columns ≠ [] := List.cons_ne_nil _ _
  have hnan : readings.hasNaN = true := by decide
  refine ⟨?_, ?_, hcolumns, hnan, ?_⟩
  · exact (compile_selects_all .plain _).1.mpr ⟨List.cons_ne_nil _ _, Or.inl (by decide)⟩
  · exact (compile_selects_all .plain _).2.1 rfl
  · exact (compile_selects_all .plain (.table readings)).2.2.1 hcolumns hnan

/-- A table that can be declared and is selected from twice. -/
theorem compile_select_readings :
    Table.declare "readings" readings.columns = .ok readings ∧
      (Source.table readings).select.toClause.compile .plain
        = .ok ⟨"SELECT readings.at, readings.level FROM readings, readings", .empty⟩ ∧
      selectText .plain (.table readings) = "SELECT readings.at, readings.level FROM readings" ∧
      (Source.table readings).select.toClause.compile .plain
        ≠ .ok ⟨selectText .plain (.table readings), .empty⟩ := by
  have hcount : mentionCount (.table readings) = 2 := by decide
  rw [compile_select_source]
  refine ⟨rfl, by rw [hcount]; rfl, rfl, fun h => ?_⟩
  have hsql := congrArg Statement.sql (Except.ok.inj h)
  have hone := (eq_selectText_iff .plain (.table readings)).mp hsql
  omega

end Clause

end BoundSql
