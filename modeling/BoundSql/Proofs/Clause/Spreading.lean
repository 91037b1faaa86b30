import BoundSql.Proofs.Clause.Mentions

/-!
# Selecting a join

A join is selected as the columns of the tables and aliases at its ends, from left to right, and the
join itself to select from. Main statement: it comes to the same whether the columns are listed and
the join is added, or the join is given as the one item; and the SQL is that of the columns followed
by that of the join. What follows the columns has the text of the join in it once, and so has the
whole unless a word of a join is a word of the columns.
-/

namespace BoundSql

/-! ### Words between blanks -/

/-- A word with a blank before and behind it. -/
def spaced (word : List Char) : List Char := ' ' :: (word ++ [' '])

theorem prefix_of_not_mem (word lead text : List Char) (c : Char) (hc : c ∉ word)
    (h : word <+: lead ++ c :: text) : word <+: lead := by
  rcases List.prefix_or_prefix_of_prefix h (List.prefix_append lead (c :: text)) with hle | hgt
  · exact hle
  · obtain ⟨extra, rfl⟩ := hgt
    rw [List.prefix_append_right_inj] at h
    cases extra with
    | nil => rw [List.append_nil]
    | cons d extra =>
      obtain rfl := (List.cons_prefix_cons.mp h).1
      exact absurd (List.mem_append_right _ List.mem_cons_self) hc

/-- A word with a blank behind it is all that stands before a blank, or stands within that. -/
theorem eq_or_prefix_of_blank (word lead text : List Char) (hword : ' ' ∉ word)
    (h : word ++ [' '] <+: lead ++ ' ' :: text) : lead = word ∨ word ++ [' '] <+: lead := by
  obtain ⟨rest, rfl⟩ := prefix_of_not_mem word lead text ' ' hword ((List.prefix_append ..).trans h)
  rw [List.append_assoc, List.prefix_append_right_inj] at h
  cases rest with
  | nil => exact Or.inl (List.append_nil word)
  | cons d rest =>
    obtain rfl := (List.cons_prefix_cons.mp h).1
    exact Or.inr ((List.prefix_append_right_inj word).mpr (List.prefix_append [' '] rest))

theorem infix_behind_blank (w l rest : List Char) (hw : ' ' ∉ w)
    (h : ' ' :: l <:+: w ++ ' ' :: rest) :
    l <+: rest ∨ ' ' :: l <:+: rest := by
  induction w with
  | nil =>
    rcases List.infix_cons_iff.mp h with hfirst | hlater
    · exact Or.inl (List.cons_prefix_cons.mp hfirst).2
    · exact Or.inr hlater
  | cons c w ih =>
    rw [List.mem_cons, not_or] at hw
    rcases List.infix_cons_iff.mp h with hfirst | hlater
    · exact absurd (List.cons_prefix_cons.mp hfirst).1 hw.1
    · exact ih hw.2 hlater

theorem mem_of_begins (words : List (List Char)) (word : List Char)
    (hblank : ∀ w ∈ words, ' ' ∉ w) (hword : ' ' ∉ word)
    (h : word ++ [' '] <+: words.flatMap (· ++ [' '])) : word ∈ words := by
  cases words with
  | nil => simp at h
  | cons w words =>
    rw [List.flatMap_cons, List.append_assoc, List.singleton_append] at h
    rcases eq_or_prefix_of_blank word w _ hword h with rfl | hwithin
    · exact List.mem_cons_self
    · have hmem : ' ' ∈ w := hwithin.mem (List.mem_append_right _ List.mem_cons_self)
      exact absurd hmem (hblank w List.mem_cons_self)

/-- What stands between two blanks of a row of words is one of the words. -/
theorem mem_of_infix_spaced (words : List (List Char)) (word : List Char)
    (hblank : ∀ w ∈ words, ' ' ∉ w) (hword : ' ' ∉ word)
    (h : spaced word <:+: words.flatMap (· ++ [' '])) : word ∈ words := by
  induction words with
  | nil => simp [spaced] at h
  | cons w words ih =>
    obtain ⟨hw, hwords⟩ := List.forall_mem_cons.mp hblank
    rw [List.flatMap_cons, List.append_assoc, List.singleton_append] at h
    rcases infix_behind_blank w _ _ hw h with hnext | hlater
    · exact List.mem_cons_of_mem _ (mem_of_begins words word hwords hword hnext)
    · exact List.mem_cons_of_mem _ (ih hwords hlater)

/-- A text is the row of its words, none of which has a blank. -/
theorem words_of_text (cs : List Char) :
    (cs.splitOn ' ').flatMap (· ++ [' ']) = cs ++ [' '] ∧ ∀ w ∈ cs.splitOn ' ', ' ' ∉ w := by
  simp only [List.splitOn_eq_splitOnP]
  induction cs with
  | nil => exact ⟨rfl, by simp⟩
  | cons c cs ih =>
    obtain ⟨w, words, hwords⟩ := List.exists_cons_of_ne_nil (List.splitOnP_ne_nil (· == ' ') cs)
    rw [List.splitOnP_cons_eq_if_modifyHead]
    rw [hwords, List.flatMap_cons] at ih
    rw [hwords]
    obtain ⟨hrow, hblank⟩ := ih
    by_cases hc : c = ' '
    · rw [if_pos (by simp [hc]), List.flatMap_cons, List.flatMap_cons, hrow, hc]
      exact ⟨rfl, List.forall_mem_cons.mpr ⟨List.not_mem_nil, hblank⟩⟩
    · obtain ⟨hw, hblank⟩ := List.forall_mem_cons.mp hblank
      rw [if_neg (by simp [hc]), List.modifyHead_cons, List.flatMap_cons, List.cons_append,
        List.cons_append, hrow]
      exact ⟨rfl, List.forall_mem_cons.mpr ⟨by simp [hw, Ne.symm hc], hblank⟩⟩

/-! ### Texts that stand once -/

/-- A word that is in the lead nowhere between blanks, and with which the text does not begin, is
not found before the text. -/
theorem not_prefix_drop (word lead text : List Char) (n : Nat) (hword : ' ' ∉ word)
    (hlead : ¬spaced word <:+: lead ++ [' ']) (hstart : ¬word ++ [' '] <+: text)
    (hn : n ≤ lead.length) : ¬spaced word <+: (lead ++ ' ' :: text).drop n := by
  intro h
  have hzero : n - lead.length = 0 := by omega
  rw [List.drop_append, hzero, List.drop_zero] at h
  cases hdrop : lead.drop n with
  | nil =>
    rw [hdrop] at h
    exact hstart (List.cons_prefix_cons.mp h).2
  | cons d rest =>
    rw [hdrop] at h
    obtain ⟨rfl, hrest⟩ := List.cons_prefix_cons.mp h
    have hwithin : word ++ [' '] <+: rest ++ [' '] := by
      rcases eq_or_prefix_of_blank word rest text hword hrest with rfl | hbegins
      · exact List.prefix_rfl
      · exact hbegins.trans (List.prefix_append rest [' '])
    have hlater : ' ' :: rest ++ [' '] <:+ lead ++ [' '] :=
      ⟨lead.take n, by rw [← hdrop, ← List.append_assoc, List.take_append_drop]⟩
    exact hlead ((List.cons_prefix_cons.mpr ⟨rfl, hwithin⟩).isInfix.trans hlater.isInfix)

/-- Behind a lead without a word that the text has between blanks, the text stands at no place but
the last. -/
theorem eq_nil_of_recurs (word lead text front back : List Char) (hword : ' ' ∉ word)
    (hlead : ¬spaced word <:+: lead ++ [' ']) (hstart : ¬word ++ [' '] <+: text)
    (htext : spaced word <:+: text) (h : lead ++ ' ' :: text = front ++ (text ++ back)) :
    back = [] := by
  -- The first place of the word in the text is also that of the word behind the lead.
  have hplace : ∃ n, spaced word <+: text.drop n := by
    obtain ⟨before, after, rfl⟩ := htext
    refine ⟨before.length, ?_⟩
    rw [List.append_assoc, List.drop_left]
    exact List.prefix_append _ after
  have hfirst := Nat.find_spec hplace
  have hleast : ∀ m, spaced word <+: text.drop m → Nat.find hplace ≤ m :=
    fun m hm => Nat.find_min' hplace hm
  have hrecurs : spaced word <+: (lead ++ ' ' :: text).drop (front.length + Nat.find hplace) := by
    rw [h, ← List.drop_drop, List.drop_left, List.drop_append]
    exact hfirst.trans (List.prefix_append _ _)
  generalize Nat.find hplace = n at hleast hrecurs
  have hbehind : lead.length < front.length + n := by
    by_contra hin
    exact not_prefix_drop word lead text _ hword hlead hstart (by omega) hrecurs
  obtain ⟨m, hm⟩ := Nat.exists_eq_add_of_lt hbehind
  have hdrop : (lead ++ ' ' :: text).drop (front.length + n) = text.drop m := by
    rw [hm, Nat.add_assoc, ← List.drop_drop, List.drop_left, List.drop_succ_cons]
  have hle := hleast m (hdrop ▸ hrecurs)
  have hlength := congrArg List.length h
  simp only [List.length_append, List.length_cons] at hlength
  exact List.length_eq_zero_iff.mp (by omega)

namespace Template

/-- Texts around a template stand around what it is filled with. -/
theorem fill_between (b : Binder) (before after : List String) (t : Template) :
    fill b (before.map .text ++ (t ++ after.map .text))
      = (fill b t).map fun r => (before ++ (r.1 ++ after), r.2) := by
  rw [fill_append_eq_bind, fill_texts, Except.bind, fill_append_eq_bind]
  cases fill b t with
  | error cause => rfl
  | ok r => rw [Except.bind, fill_texts, Except.map, Except.map, Except.map]

end Template

namespace Clause

/-! ### Ends of joins -/

/-- What is no join and stands in the clause where the numbers lead, 0 to the left side of a join
and 1 to the right one. -/
inductive LeafAt : Clause → List Nat → Clause → Prop
  | here {c : Clause} : c.join? = none → LeafAt c [] c
  | left {l r on d : Clause} {outer : Bool} {place : List Nat} :
      LeafAt l place d → LeafAt (.join l r on outer) (0 :: place) d
  | right {l r on d : Clause} {outer : Bool} {place : List Nat} :
      LeafAt r place d → LeafAt (.join l r on outer) (1 :: place) d

theorem leafAt_of_not_join (c d : Clause) (place : List Nat) (h : c.join? = none) :
    LeafAt c place d ↔ place = [] ∧ d = c := by
  constructor
  · intro hd
    cases hd with
    | here _ => exact ⟨rfl, rfl⟩
    | left _ => cases h
    | right _ => cases h
  · rintro ⟨rfl, rfl⟩
    exact .here h

theorem leafAt_join (l r on d : Clause) (outer : Bool) (place : List Nat) :
    LeafAt (.join l r on outer) place d ↔
      (∃ rest, place = 0 :: rest ∧ LeafAt l rest d) ∨ ∃ rest, place = 1 :: rest ∧ LeafAt r rest d := by
  constructor
  · intro hd
    cases hd with
    | here h => cases h
    | left hd => exact Or.inl ⟨_, rfl, hd⟩
    | right hd => exact Or.inr ⟨_, rfl, hd⟩
  · rintro (⟨rest, rfl, hd⟩ | ⟨rest, rfl, hd⟩)
    · exact .left hd
    · exact .right hd

/-- The sources at the ends of a clause with their places, from left to right. -/
structure Spreads (c : Clause) (ps : List (List Nat × Source)) : Prop where
  ordered : ps.Pairwise fun p p' => Before p.1 p'.1
  mem_iff : ∀ place s, (place, s) ∈ ps ↔ LeafAt c place s.toClause

theorem spreads_source (s : Source) : Spreads s.toClause [([], s)] where
  ordered := List.pairwise_singleton _ _
  mem_iff place t := by
    have hjoin : s.toClause.join? = none := by cases s <;> rfl
    have hsource : t.toClause = s.toClause ↔ t = s := by
      cases s <;> cases t <;> simp [Source.toClause]
    rw [leafAt_of_not_join _ _ _ hjoin, hsource, List.mem_singleton, Prod.mk.injEq]

theorem spreads_nil (c : Clause) (hjoin : c.join? = none) (hsource : c.source? = none) :
    Spreads c [] where
  ordered := .nil
  mem_iff place s := by
    rw [leafAt_of_not_join _ _ _ hjoin]
    refine iff_of_false List.not_mem_nil ?_
    rintro ⟨_, rfl⟩
    cases s <;> cases hsource

theorem Spreads.join {l r : Clause} {ps qs : List (List Nat × Source)} (hl : Spreads l ps)
    (hr : Spreads r qs) (on : Clause) (outer : Bool) :
    Spreads (.join l r on outer) (ps.map (Prod.map (0 :: ·) id) ++ qs.map (Prod.map (1 :: ·) id))
    where
  ordered := by
    rw [List.pairwise_append, List.pairwise_map, List.pairwise_map]
    refine ⟨hl.ordered.imp .cons, hr.ordered.imp .cons, fun p hp p' hp' => ?_⟩
    obtain ⟨_, _, rfl⟩ := List.mem_map.mp hp
    obtain ⟨_, _, rfl⟩ := List.mem_map.mp hp'
    exact .rel Nat.zero_lt_one
  mem_iff place s := by
    have hside : ∀ (i : Nat) (ps : List (List Nat × Source)),
        (place, s) ∈ ps.map (Prod.map (i :: ·) id) ↔ ∃ rest, place = i :: rest ∧ (rest, s) ∈ ps := by
      intro i ps
      rw [List.mem_map]
      constructor
      · rintro ⟨p, hp, he⟩
        obtain ⟨rfl, rfl⟩ := Prod.mk.inj he
        exact ⟨p.1, rfl, hp⟩
      · rintro ⟨rest, rfl, hp⟩
        exact ⟨(rest, s), hp, rfl⟩
    rw [leafAt_join, List.mem_append, hside, hside]
    simp only [hl.mem_iff, hr.mem_iff]

theorem exists_spreads (c : Clause) : ∃ ps, Spreads c ps ∧ ps.map Prod.snd = c.sources := by
  induction c using Clause.induct with
  | table t => exact ⟨_, spreads_source (.table t), rfl⟩
  | aliased a => exact ⟨_, spreads_source (.aliased a), rfl⟩
  | join l r on outer ihl ihr _ =>
    obtain ⟨ps, hps, hl⟩ := ihl
    obtain ⟨qs, hqs, hr⟩ := ihr
    refine ⟨_, hps.join hqs on outer, ?_⟩
    rw [sources, ← hl, ← hr, List.map_append, List.map_map, List.map_map]
    rfl
  | _ => exact ⟨[], spreads_nil _ rfl rfl, rfl⟩

end Clause

open Clause

namespace Join

/-! ### The same SELECT -/

/-- Listing the columns and adding the join is the same as giving the join as the one item. -/
theorem select_eq (j : Join) :
    j.select = (Select.ofItems ((j.sources.flatMap Source.columns).map .column)).from j.toClause ∧
      j.select = Select.ofItems [j.toClause] := by
  rw [Select.ofItems_columns]
  exact ⟨rfl, rfl⟩

/-! ### The statement -/

/-- A select list of some texts. -/
def listText (texts : List String) : String :=
  if texts = [] then "*" else ", ".intercalate texts

theorem compile_select (q : Quoting) (j : Join) :
    j.select.toClause.compile q = (j.toClause.compile q).map fun st =>
      ⟨"SELECT " ++ listText (j.sources.flatMap (columnTexts q)) ++ " FROM " ++ st.sql, st.params⟩ := by
  obtain ⟨columns, hcolumns, hlist⟩ := columnsTemplate_refs q (j.sources.flatMap Source.columns)
  have htemplate : j.select.toClause.template q
      = ("SELECT " :: columns ++ [" FROM "]).map .text ++ (j.toClause.template q ++ [""].map .text) := by
    have hfroms : ∀ cs, fromsTemplate q cs [j.toClause] = .text " FROM " :: j.toClause.template q :=
      fun cs => rfl
    have hlimit : limitText none none = "" := rfl
    rw [select, Select.toClause, template_select, hcolumns, hfroms, hlimit]
    simp [whereTemplate, orderTemplate]
  have htext : String.join columns = listText (j.sources.flatMap (columnTexts q)) := by
    have hcolumnTexts : (j.sources.flatMap Source.columns).map q.quoteColumn
        = j.sources.flatMap (columnTexts q) := by
      rw [List.map_flatMap]
      exact List.flatMap_congr fun s _ => quoteColumn_columns q s
    rw [hlist, ← hcolumnTexts, listText]
    simp only [List.map_eq_nil_iff]
  rw [compile, compile, htemplate, Template.fill_between]
  cases Template.fill {} (j.toClause.template q) with
  | error cause => rfl
  | ok r =>
    simp only [Except.map, ← htext]
    simp [String.append_assoc]

/-- The two words of a join stand between blanks in its text. -/
theorem spaced_infix_text (q : Quoting) (j : Join) (st : Statement)
    (h : j.toClause.compile q = .ok st) :
    spaced ['J', 'O', 'I', 'N'] <:+: st.sql.toList ∧ spaced ['O', 'N'] <:+: st.sql.toList := by
  obtain ⟨texts, b, hfill, hsql, _⟩ := compile_ok q _ st h
  obtain ⟨sides, b₂, condition, hsides, _, rfl⟩ := Template.fill_around_ok _ b _ _ _ texts hfill
  obtain ⟨left, _, right, _, _, rfl⟩ := Template.fill_around_ok _ b₂ _ _ _ sides hsides
  have hkeyword : ∃ before, (if j.outer then " LEFT OUTER JOIN " else " JOIN ").toList
      = before ++ spaced ['J', 'O', 'I', 'N'] := by
    cases j.outer
    · exact ⟨[], rfl⟩
    · exact ⟨" LEFT OUTER".toList, rfl⟩
  obtain ⟨before, hkeyword⟩ := hkeyword
  have hon : " ON ".toList = spaced ['O', 'N'] := rfl
  have htext : st.sql.toList = (String.join left).toList ++ (before ++ spaced ['J', 'O', 'I', 'N'])
      ++ (String.join right).toList ++ spaced ['O', 'N'] ++ (String.join condition).toList := by
    rw [hsql, ← hkeyword, ← hon]
    simp
  rw [htext]
  constructor
  · exact ⟨(String.join left).toList ++ before, (String.join right).toList ++ spaced ['O', 'N']
      ++ (String.join condition).toList, by simp⟩
  · exact ⟨_, _, rfl⟩

/-- Behind a lead without these two words the text of a join stands at no place but the last. -/
theorem eq_empty_of_recurs (q : Quoting) (j : Join) (st : Statement)
    (h : j.toClause.compile q = .ok st) (lead front back : String)
    (hjoin : ¬spaced ['J', 'O', 'I', 'N'] <:+: lead.toList ++ [' '])
    (hon : ¬spaced ['O', 'N'] <:+: lead.toList ++ [' '])
    (hsplit : lead ++ " " ++ st.sql = front ++ st.sql ++ back) : back = "" := by
  obtain ⟨hhasJoin, hhasOn⟩ := spaced_infix_text q j st h
  have hchars : lead.toList ++ ' ' :: st.sql.toList
      = front.toList ++ (st.sql.toList ++ back.toList) := by
    have hlists := congrArg String.toList hsplit
    simpa using hlists
  refine String.toList_eq_nil_iff.mp ?_
  -- The text begins with one of the two words at most, and the other one is searched for.
  by_cases hstart : ['J', 'O', 'I', 'N'] ++ [' '] <+: st.sql.toList
  · have hstart' : ¬['O', 'N'] ++ [' '] <+: st.sql.toList := by
      intro hother
      obtain ⟨behind, htext⟩ := hstart
      rw [← htext] at hother
      exact absurd (List.cons_prefix_cons.mp hother).1 (by decide)
    exact eq_nil_of_recurs _ _ _ _ _ (by decide) hon hstart' hhasOn hchars
  · exact eq_nil_of_recurs _ _ _ _ _ (by decide) hjoin hstart hhasJoin hchars

/-- A word that is no word of a select list is none of what stands before the join. -/
theorem not_spaced_infix_lead (list : String) (word : List Char) (hblank : ' ' ∉ word)
    (hselect : word ≠ "SELECT".toList) (hfrom : word ≠ "FROM".toList)
    (hlist : word ∉ list.toList.splitOn ' ') :
    ¬spaced word <:+: ("SELECT " ++ list ++ " FROM").toList ++ [' '] := by
  obtain ⟨hrow, hblanks⟩ := words_of_text list.toList
  have hlead : ("SELECT " ++ list ++ " FROM").toList ++ [' ']
      = ("SELECT".toList :: (list.toList.splitOn ' ' ++ ["FROM".toList])).flatMap (· ++ [' ']) := by
    have hstart : "SELECT ".toList = "SELECT".toList ++ [' '] := rfl
    have hend : " FROM".toList = ' ' :: "FROM".toList := rfl
    rw [List.flatMap_cons, List.flatMap_append, List.flatMap_singleton, hrow, String.toList_append,
      String.toList_append, hstart, hend]
    simp
  intro h
  rw [hlead] at h
  have hmem := mem_of_infix_spaced _ word (List.forall_mem_cons.mpr ⟨by decide,
    List.forall_mem_append.mpr ⟨hblanks, by decide⟩⟩) hblank h
  rcases List.mem_cons.mp hmem with he | hmem
  · exact hselect he
  · rcases List.mem_append.mp hmem with hmem | he
    · exact hlist hmem
    · exact hfrom (List.mem_singleton.mp he)

/-- In what is selected from the text of the join stands once. -/
theorem eq_empty_of_recurs_from (q : Quoting) (j : Join) (st : Statement)
    (h : j.toClause.compile q = .ok st) (front back : String)
    (hsplit : " FROM " ++ st.sql = front ++ st.sql ++ back) : back = "" := by
  have hlead : " FROM " = " FROM" ++ " " := rfl
  rw [hlead] at hsplit
  exact eq_empty_of_recurs q j st h " FROM" front back (by decide) (by decide) hsplit

/-- In the whole statement too, unless one of its two words is a word of the select list. -/
theorem eq_empty_of_recurs_select (q : Quoting) (j : Join) (st : Statement)
    (h : j.toClause.compile q = .ok st) (list front back : String)
    (hjoin : "JOIN".toList ∉ list.toList.splitOn ' ')
    (hon : "ON".toList ∉ list.toList.splitOn ' ')
    (hsplit : "SELECT " ++ list ++ " FROM " ++ st.sql = front ++ st.sql ++ back) : back = "" := by
  have hlead : " FROM " = " FROM" ++ " " := rfl
  rw [hlead, ← String.append_assoc] at hsplit
  refine eq_empty_of_recurs q j st h _ front back ?_ ?_ hsplit
  · exact not_spaced_infix_lead list _ (by decide) (by decide) (by decide) hjoin
  · exact not_spaced_infix_lead list _ (by decide) (by decide) (by decide) hon

/--
Whatever a join is made of, it is selected in the same way by its columns and itself and as the one
item of a SELECT. The columns are those of the tables and aliases at its ends, from left to right,
in declared order at each end and under the name of the source there. It is selected from the join
alone: the SQL is the list of the columns and then that of the join, with the same parameters, and
what is selected from has the text of the join in it once. So has the whole SQL if neither `JOIN`
nor `ON` is a word of the list of the columns, which may have any names. It cannot be rendered if
the join cannot.
-/
theorem select_spreads (j : Join) :
    j.select = (Select.ofItems j.select.columns).from j.toClause ∧
      j.select = Select.ofItems [j.toClause] ∧ j.select.effectiveFroms = [j.toClause] ∧
      ∃ ps : List (List Nat × Source),
        ps.Pairwise (fun p p' => Before p.1 p'.1) ∧
        (∀ place s, (place, s) ∈ ps ↔ LeafAt j.toClause place s.toClause) ∧
        j.select = {
          columns := ps.flatMap fun p =>
            p.2.base.columns.map fun c => .column { name := c.name, source := some p.2 }
          froms := [j.toClause] } ∧
        ∀ q : Quoting,
          let list := listText (ps.flatMap fun p => p.2.base.columns.map fun c =>
            q.quote p.2.name ++ "." ++ q.quote c.name)
          j.select.toClause.compile q = (j.toClause.compile q).map (fun st =>
            ⟨"SELECT " ++ list ++ " FROM " ++ st.sql, st.params⟩) ∧
          ∀ st, j.toClause.compile q = .ok st → ∀ front back : String,
            (" FROM " ++ st.sql = front ++ st.sql ++ back → back = "") ∧
            ("JOIN".toList ∉ list.toList.splitOn ' ' → "ON".toList ∉ list.toList.splitOn ' ' →
              "SELECT " ++ list ++ " FROM " ++ st.sql = front ++ st.sql ++ back → back = "") := by
  obtain ⟨ps, hps, hsources⟩ := exists_spreads j.toClause
  obtain ⟨hlisted, hitem⟩ := j.select_eq
  refine ⟨hlisted, hitem, rfl, ps, hps.ordered, hps.mem_iff, ?_, fun q => ⟨?_,
    fun st h front back => ⟨j.eq_empty_of_recurs_from q st h front back,
      j.eq_empty_of_recurs_select q st h _ front back⟩⟩⟩
  · rw [select, Join.sources, ← hsources, List.flatMap_map, List.map_flatMap]
    simp only [Source.columns, Table.columnNames, List.map_map]
    rfl
  · rw [compile_select, Join.sources, ← hsources, List.flatMap_map]
    simp only [columnTexts, Table.columnNames, List.map_map]
    rfl

theorem texts_of_columns (q : Quoting) (ps : List (List Nat × Source)) :
    ((ps.flatMap fun p => p.2.base.columns.map fun c =>
        Clause.column { name := c.name, source := some p.2 }).flatMap columnRefs).map q.quoteColumn
      = ps.flatMap fun p => p.2.base.columns.map fun c =>
          q.quote p.2.name ++ "." ++ q.quote c.name := by
  simp only [List.flatMap_assoc, List.map_flatMap, List.flatMap_map, columnRefs,
    ← List.map_eq_flatMap, List.map_map]
  rfl

/-- Between the ends with columns stands one of which only the name is known. -/
def scoredGames : Join :=
  let games : Table := ⟨"games", [⟨"id", .integer, {}⟩, ⟨"name", .text, {}⟩]⟩
  ⟨.table games, .join (.named "scores") (.aliased ⟨games, "g"⟩) .null true,
    .binary (.column { name := "points" }) .gt (.bind "points" (.int 90)), false⟩

theorem select_spreads_scoredGames :
    let text := "games JOIN scores LEFT OUTER JOIN games AS g ON NULL ON points > :points_1"
    let whole := "SELECT games.id, games.name, g.id, g.name FROM " ++ text
    scoredGames.select = Select.ofItems [scoredGames.toClause] ∧
      scoredGames.toClause.compile .plain = .ok ⟨text, ⟨[("points_1", .int 90)]⟩⟩ ∧
      scoredGames.select.toClause.compile .plain = .ok ⟨whole, ⟨[("points_1", .int 90)]⟩⟩ ∧
      " FROM " ++ text = " FROM " ++ text ++ "" ∧
      (∀ front back : String, " FROM " ++ text = front ++ text ++ back → back = "") ∧
      ∀ front back : String, whole = front ++ text ++ back → back = "" := by
  intro text whole
  obtain ⟨_, hitem, _, ps, _, _, hcolumns, hcompile⟩ := select_spreads scoredGames
  obtain ⟨_, honce⟩ := hcompile .plain
  have hjoin : scoredGames.toClause.compile .plain
      = .ok ⟨text, ⟨[("points_1", .int 90)]⟩⟩ := by rfl
  have hselect : scoredGames.select.toClause.compile .plain
      = .ok ⟨whole, ⟨[("points_1", .int 90)]⟩⟩ := by rfl
  have htexts : (ps.flatMap fun p => p.2.base.columns.map fun c =>
        Quoting.plain.quote p.2.name ++ "." ++ Quoting.plain.quote c.name)
      = (scoredGames.select.columns.flatMap columnRefs).map Quoting.plain.quoteColumn := by
    rw [hcolumns]
    exact (texts_of_columns .plain ps).symm
  have hlist : (scoredGames.select.columns.flatMap columnRefs).map Quoting.plain.quoteColumn
      = ["games.id", "games.name", "g.id", "g.name"] := by decide +kernel
  rw [htexts, hlist] at honce
  refine ⟨hitem, hjoin, hselect, rfl, fun front back => (honce _ hjoin front back).1,
    fun front back => (honce _ hjoin front back).2 (by decide) (by decide)⟩

/-- The one column of a table has the text of its join as its name. -/
def selfNamed : Join :=
  ⟨.table ⟨"t", [⟨"t JOIN u ON NULL", .integer, {}⟩]⟩, .named "u", .null, false⟩

theorem select_repeats_selfNamed :
    let text := "t JOIN u ON NULL"
    let whole := "SELECT t.t JOIN u ON NULL FROM t JOIN u ON NULL"
    Table.declare "t" [⟨text, .integer, {}⟩] = .ok ⟨"t", [⟨text, .integer, {}⟩]⟩ ∧
      selfNamed.toClause.compile .plain = .ok ⟨text, .empty⟩ ∧
      selfNamed.select.toClause.compile .plain = .ok ⟨whole, .empty⟩ ∧
      whole = "SELECT t." ++ text ++ (" FROM " ++ text) ∧
      ¬∀ front back : String, whole = front ++ text ++ back → back = "" := by
  intro text whole
  refine ⟨by rfl, by rfl, by rfl, rfl, fun honce => ?_⟩
  have hback := honce "SELECT t." (" FROM " ++ text) rfl
  exact absurd hback (by decide)

end Join

end BoundSql
