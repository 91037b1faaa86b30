import BoundSql.Proofs.Clause.Places

/-!
# Setting columns

An INSERT or an UPDATE whose values are added in several calls sets the columns that the calls
mention, in the order in which they are first mentioned, each to the last value given for it. Both
statements are refused for the same reasons, and where they are not, they bind the same parameters
and write each column with the placeholder of its name.
-/

namespace BoundSql

/-! ### Values of several calls -/

theorem setValue_eq_put (values : List (String × Scalar)) (column : String) (v : Scalar) :
    setValue values column v = Params.put values column v := by
  induction values with
  | nil => rfl
  | cons e values ih => rw [setValue, Params.put, ih]

theorem setValues_entries (p : Params) (pairs : List (String × Scalar)) :
    setValues (some p.entries) pairs = (pairs.foldl (fun p e => p.insert e.1 e.2) p).entries := by
  rw [setValues, Option.getD_some]
  induction pairs generalizing p with
  | nil => rfl
  | cons e pairs ih =>
    rw [List.foldl_cons, List.foldl_cons, setValue_eq_put]
    exact ih (p.insert e.1 e.2)

/-- The values that a statement has after some calls; before the first one it has none. -/
def givenValues (calls : List (List (String × Scalar))) : Option (List (String × Scalar)) :=
  if calls = [] then none else some (Params.ofList calls.flatten).entries

theorem foldl_setValues_some (p : Params) (calls : List (List (String × Scalar))) :
    calls.foldl (fun values pairs => some (setValues values pairs)) (some p.entries)
      = some (calls.flatten.foldl (fun p e => p.insert e.1 e.2) p).entries := by
  induction calls generalizing p with
  | nil => rfl
  | cons pairs calls ih =>
    rw [List.foldl_cons, setValues_entries, ih, List.flatten_cons, List.foldl_append]

theorem foldl_setValues (calls : List (List (String × Scalar))) :
    calls.foldl (fun values pairs => some (setValues values pairs)) none = givenValues calls := by
  cases calls with
  | nil => rfl
  | cons pairs calls => exact foldl_setValues_some .empty (pairs :: calls)

/-- The INSERT into a table with the values of some calls, one call after the other. -/
def Insert.given (t : Table) (calls : List (List (String × Scalar))) : Insert :=
  calls.foldl addValues ⟨t, none⟩

/-- The UPDATE of a table with the values of some calls, one call after the other. -/
def Update.given (t : Table) (calls : List (List (String × Scalar))) : Update :=
  calls.foldl addValues ⟨t, none, none⟩

theorem Insert.given_eq (t : Table) (calls : List (List (String × Scalar))) :
    Insert.given t calls = ⟨t, givenValues calls⟩ := by
  rw [given, ← foldl_setValues]
  exact List.foldl_hom (fun values => (⟨t, values⟩ : Insert)) fun _ _ => rfl

theorem Update.given_eq (t : Table) (calls : List (List (String × Scalar))) :
    Update.given t calls = ⟨t, givenValues calls, none⟩ := by
  rw [given, ← foldl_setValues]
  exact List.foldl_hom (fun values => (⟨t, values, none⟩ : Update)) fun _ _ => rfl

/-! ### Texts of assignments -/

/-- The assignment sets the column: it has its quoted name, and a site for its value. -/
def Sets (q : Quoting) (a : Assignment) (column : String) : Prop :=
  a.1 = q.quote column ∧ a.2.site?.isSome

theorem sets_of_assignments (q : Quoting) (t : Table) (values : Option (List (String × Scalar)))
    (set : List Assignment) (h : assignments q t values = .ok set) :
    List.Forall₂ (Sets q) set (claimedColumns t values) := by
  cases values with
  | none =>
    obtain rfl := Except.ok.inj h
    rw [claimedColumns, List.forall₂_map_left_iff, List.forall₂_same]
    exact fun _ _ => ⟨rfl, rfl⟩
  | some row =>
    simp only [assignments] at h
    split at h
    · cases h
    · split at h
      · cases h
      · obtain rfl := Except.ok.inj h
        rw [claimedColumns, List.forall₂_map_left_iff, List.forall₂_map_right_iff,
          List.forall₂_same]
        exact fun _ _ => ⟨rfl, rfl⟩

namespace Template

/-- A list of templates, each with one site, is written as the list of their texts. -/
theorem join_written_join (q : Quoting) (separator : String) (f : Assignment → Template)
    (g : String → String) (set : List Assignment) (columns names : List String) (u : Template)
    (hf : ∀ a column, Sets q a column → ∀ v names,
      String.join (written (f a ++ v) (column :: names))
        = g column ++ String.join (written v names))
    (h : List.Forall₂ (Sets q) set columns) :
    String.join (written (join separator (set.map f) ++ u) (columns ++ names))
      = separator.intercalate (columns.map g) ++ String.join (written u names) := by
  induction h with
  | nil => simp [join]
  | @cons a column set columns ha h ih =>
    cases h with
    | nil =>
      rw [List.map_singleton, join, List.singleton_append, hf a column ha]
      simp
    | @cons b other set columns hb h =>
      have hjoin : join separator ((a :: b :: set).map f) ++ u
          = f a ++ (.text separator :: (join separator ((b :: set).map f) ++ u)) :=
        List.append_assoc ..
      have htexts : separator.intercalate ((column :: other :: columns).map g)
          = g column ++ separator ++ separator.intercalate ((other :: columns).map g) :=
        String.intercalate_cons_cons
      rw [hjoin, List.cons_append, hf a column ha, written, String.join_cons, ih, htexts]
      simp only [String.append_assoc]

end Template

/-! ### Statements -/

namespace Clause

/-- The text of a list in parentheses. -/
def listText (texts : List String) : String := "(" ++ ", ".intercalate texts ++ ")"

/-- The text of an INSERT that gives each column the placeholder of its name. -/
def insertText (q : Quoting) (t : Table) (columns : List String) : String :=
  " ".intercalate ["INSERT INTO", q.quote t.name, listText (columns.map q.quote), "VALUES",
    listText (columns.map Binder.placeholder)]

/-- The text of an UPDATE that sets each column to the placeholder of its name. -/
def updateText (q : Quoting) (t : Table) (columns : List String) : String :=
  " ".intercalate ["UPDATE", q.quote t.name, "SET",
    ", ".intercalate (columns.map fun c => q.quote c ++ " = " ++ Binder.placeholder c)]

theorem join_written_site (p : Piece) (hp : p.site?.isSome) (t : Template) (name : String)
    (names : List String) :
    String.join (Template.written (p :: t) (name :: names))
      = Binder.placeholder name ++ String.join (t.written names) := by
  obtain ⟨s, hs⟩ := Option.isSome_iff_exists.mp hp
  rw [Template.written_of_site p s t name names hs, String.join_cons]

theorem join_written_insert (q : Quoting) (t : Table) (values : Option (List (String × Scalar)))
    (h : (insertTemplate q t values).Whole) :
    String.join (Template.written (insertTemplate q t values) (claimedColumns t values))
      = insertText q t (claimedColumns t values) := by
  obtain ⟨set, hset⟩ := assignments_of_whole q t values _ (acts_insertTemplate ..) h
  have hlist := Template.join_written_join q ", " (fun a => [a.2]) Binder.placeholder set _ []
    [.text ")"] (fun a column ha v names => join_written_site a.2 ha.2 v column names)
    (sets_of_assignments q t values set hset)
  rw [List.append_nil] at hlist
  obtain ⟨hcolumns, _⟩ := columns_of_assignments q t values set hset
  simp only [insertTemplate, hset, List.cons_append, Template.written, String.join_cons, hlist,
    hcolumns, insertText, listText]
  generalize ", ".intercalate ((claimedColumns t values).map q.quote) = names
  generalize ", ".intercalate ((claimedColumns t values).map Binder.placeholder) = places
  simp [← String.toList_inj]

theorem join_written_update (q : Quoting) (t : Table) (values : Option (List (String × Scalar)))
    (h : (updateTemplate q t values).Whole) :
    String.join (Template.written (updateTemplate q t values) (claimedColumns t values))
      = updateText q t (claimedColumns t values) := by
  obtain ⟨set, hset⟩ := assignments_of_whole q t values _ (acts_updateTemplate ..) h
  have hlist := Template.join_written_join q ", " (fun a => [.text (a.1 ++ " = "), a.2])
    (fun c => q.quote c ++ " = " ++ Binder.placeholder c) set _ [] []
    (fun a column ha v names => by
      rw [List.cons_append, Template.written, String.join_cons, ha.1, List.singleton_append,
        join_written_site a.2 ha.2, String.append_assoc, String.append_assoc, String.append_assoc])
    (sets_of_assignments q t values set hset)
  rw [List.append_nil, List.append_nil] at hlist
  simp only [updateTemplate, hset, Template.written, String.join_cons, hlist, updateText]
  generalize ", ".intercalate ((claimedColumns t values).map fun c =>
    q.quote c ++ " = " ++ Binder.placeholder c) = texts
  simp [← String.toList_inj]

/-- A clause whose sites are the columns that it sets binds the given values under their names. -/
theorem compile_of_columnSites (q : Quoting) (c : Clause) (t : Table)
    (values : Option (List (String × Scalar))) (text : String)
    (hsites : c.sites = columnSites t values)
    (htext : (c.template q).Whole →
      String.join (Template.written (c.template q) (claimedColumns t values)) = text)
    (hok : ∀ e, c.compile q ≠ .error e) : c.compile q = .ok ⟨text, ⟨values.getD []⟩⟩ := by
  cases h : c.compile q with
  | error e => exact absurd h (hok e)
  | ok s =>
    obtain ⟨hwhole, names, hnamed, hsql, hentries⟩ := compile_named q c s h
    rw [hsites] at hnamed hentries
    obtain rfl := named_columnSites t values [] names hnamed
    rw [carried_columnSites] at hentries
    rw [htext hwhole] at hsql
    rw [Except.ok.injEq, ← hsql, ← hentries]

/-! ### Outcomes -/

/-- What it comes to to set the columns that some calls give, in a statement that is written as
`text` says. -/
def settingOutcome (t : Table) (calls : List (List (String × Scalar)))
    (text : List String → String) : Except Error Statement :=
  let given := Params.ofList calls.flatten
  let unknown := given.keys.filter fun column => decide (column ∉ t.columnNames)
  if calls = [] then .ok ⟨text t.columnNames, .empty⟩
  else if unknown ≠ [] then .error (.unknownColumns t.name unknown)
  else if given.keys = [] then .error (.empty .valueList)
  else .ok ⟨text given.keys, given⟩

theorem cannotSet_some_iff (t : Table) (row : List (String × Scalar)) (e : Error) :
    CannotSet t (some row) e ↔
      let unknown := (row.map (·.1)).filter fun column => decide (column ∉ t.columnNames)
      unknown ≠ [] ∧ e = .unknownColumns t.name unknown ∨ row = [] ∧ e = .empty .valueList := by
  simp [CannotSet, List.filter_eq_nil_iff]

theorem eq_settingOutcome (t : Table) (calls : List (List (String × Scalar)))
    (text : List String → String) (result : Except Error Statement)
    (herror : ∀ e, result = .error e ↔ CannotSet t (givenValues calls) e)
    (hok : (∀ e, result ≠ .error e) → result
      = .ok ⟨text (claimedColumns t (givenValues calls)), ⟨(givenValues calls).getD []⟩⟩) :
    result = settingOutcome t calls text := by
  unfold settingOutcome
  by_cases hcalls : calls = []
  · have hnone : givenValues calls = none := if_pos hcalls
    rw [hnone] at herror hok
    simp only [hcalls, ite_true]
    refine hok fun e he => ?_
    simpa [CannotSet] using (herror e).mp he
  · have hsome : givenValues calls = some (Params.ofList calls.flatten).entries := if_neg hcalls
    rw [hsome] at herror hok
    simp only [cannotSet_some_iff] at herror
    generalize Params.ofList calls.flatten = given at herror hok ⊢
    simp only [hcalls, ite_false]
    split
    · next hunknown => exact (herror _).mpr (Or.inl ⟨hunknown, rfl⟩)
    · next hknown =>
      split
      · next hempty => exact (herror _).mpr (Or.inr ⟨List.map_eq_nil_iff.mp hempty, rfl⟩)
      · next hgiven =>
        refine hok fun e he => ?_
        rcases (herror e).mp he with ⟨hunknown, _⟩ | ⟨hempty, _⟩
        · exact hknown hunknown
        · exact hgiven (List.map_eq_nil_iff.mpr hempty)

/--
An INSERT and an UPDATE with the values of some calls come to the same, but for the way they are
written. Without a call they set every declared column in declared order and bind nothing. After a
call they are refused for the columns that the table does not declare, in the order in which they
were first mentioned, else for having no values; and otherwise they set the columns that were
mentioned, in that order, each to the last value given for it, under its own name.
-/
theorem compile_given (q : Quoting) (name : String) (columns : List Column) (t : Table)
    (calls : List (List (String × Scalar))) (ht : Table.declare name columns = .ok t) :
    (Insert.given t calls).toClause.compile q = settingOutcome t calls (insertText q t) ∧
      (Update.given t calls).toClause.compile q = settingOutcome t calls (updateText q t) := by
  have hnodup : (claimedColumns t (givenValues calls)).Nodup := by
    refine nodup_claimedColumns t _ ((Table.declare_eq_ok name columns t).mp ht).2 ?_
    unfold givenValues
    split
    · exact List.nodup_nil
    · exact Params.nodup_keys_ofList calls.flatten
  rw [Insert.given_eq, Update.given_eq]
  constructor
  · have herror := fun e => compile_insert_eq_error q t (givenValues calls) e hnodup
    refine eq_settingOutcome t calls _ _ herror fun h => ?_
    exact compile_of_columnSites q _ t _ _ rfl (join_written_insert q t _) h
  · have herror : ∀ e, (Clause.update t (givenValues calls) none).compile q = .error e ↔
        CannotSet t (givenValues calls) e := fun e => by
      rw [compile_update_eq_error q t _ none e hnodup nofun]
      simp
    have hsites : (Clause.update t (givenValues calls) none).sites
        = columnSites t (givenValues calls) := by
      rw [sites_update, whereSites, Option.elim, List.append_nil]
    have htemplate : (Clause.update t (givenValues calls) none).template q
        = updateTemplate q t (givenValues calls) := by
      rw [template_update, whereTemplate, List.append_nil]
    refine eq_settingOutcome t calls _ _ herror fun h => ?_
    refine compile_of_columnSites q (.update t (givenValues calls) none) t _ _ hsites ?_ h
    rw [htemplate]
    exact join_written_update q t (givenValues calls)

/-- Games with a title and a score. -/
def titledGames : Table := ⟨"games", [⟨"title", .string, {}⟩, ⟨"score", .integer, {}⟩]⟩

/-- A score and a title, and then another score. -/
def renamings : List (List (String × Scalar)) :=
  [[("score", .int 5), ("title", .text "Go")], [("score", .int 7)]]

/-- A call with columns of which no game has the first and the last one. -/
def strayCall : List (String × Scalar) := [("owner", .null), ("score", .null), ("mark", .null)]

theorem compile_given_renamings :
    Table.declare "games" titledGames.columns = .ok titledGames ∧
      (Insert.given titledGames renamings).toClause.compile .plain
        = .ok ⟨"INSERT INTO games (score, title) VALUES (:score, :title)",
          ⟨[("score", .int 7), ("title", .text "Go")]⟩⟩ ∧
      settingOutcome titledGames renamings (insertText .plain titledGames)
        = .ok ⟨"INSERT INTO games (score, title) VALUES (:score, :title)",
          ⟨[("score", .int 7), ("title", .text "Go")]⟩⟩ ∧
      settingOutcome titledGames renamings (updateText .plain titledGames)
        = .ok ⟨"UPDATE games SET score = :score, title = :title",
          ⟨[("score", .int 7), ("title", .text "Go")]⟩⟩ ∧
      settingOutcome titledGames (renamings ++ [strayCall]) (insertText .plain titledGames)
        = .error (.unknownColumns "games" ["owner", "mark"]) ∧
      settingOutcome titledGames [[]] (updateText .plain titledGames)
        = .error (.empty .valueList) ∧
      settingOutcome titledGames [] (insertText .plain titledGames)
        = .ok ⟨"INSERT INTO games (title, score) VALUES (:title, :score)", .empty⟩ := by
  have ht : Table.declare "games" titledGames.columns = .ok titledGames := rfl
  have hgiven := fun calls => compile_given .plain "games" titledGames.columns titledGames calls ht
  refine ⟨ht, rfl, ?_, ?_, ?_, ?_, ?_⟩
  · rw [← (hgiven renamings).1]
    rfl
  · rw [← (hgiven renamings).2]
    rfl
  · rw [← (hgiven (renamings ++ [strayCall])).1]
    rfl
  · rw [← (hgiven [[]]).2]
    rfl
  · rw [← (hgiven []).1]
    rfl

end Clause

end BoundSql
