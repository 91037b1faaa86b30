import Mathlib.Data.List.Forall2
import BoundSql.Proofs.Clause.Induction
import BoundSql.Proofs.Quoting
import BoundSql.Statement

/-!
# One clause under two quotings

Two quotings make two templates of a clause, alike piece by piece: a piece that is not text is the
same in both, and the texts are put together in the same way from the quoted names. Whatever holds
of the two forms of every name and goes through concatenation therefore holds of the two texts of
the statement, and errors and parameters are the same.
-/

namespace BoundSql

/-- A relation of texts that every text has to itself and that goes through concatenation. -/
structure Concatenable (R : String → String → Prop) : Prop where
  refl : ∀ s, R s s
  append : ∀ s t s' t', R s s' → R t t' → R (s ++ t) (s' ++ t')

/-- Pieces alike: related texts, or the same piece. -/
inductive Piece.Alike (R : String → String → Prop) : Piece → Piece → Prop
  | text {s t : String} (h : R s t) : Piece.Alike R (.text s) (.text t)
  | same (p : Piece) : Piece.Alike R p p

namespace Concatenable

variable {R : String → String → Prop} (hR : Concatenable R)

include hR

theorem join (ss ts : List String) (h : List.Forall₂ R ss ts) :
    R (String.join ss) (String.join ts) := by
  induction h with
  | nil => exact hR.refl _
  | cons hs _ ih =>
    rw [String.join_cons, String.join_cons]
    exact hR.append _ _ _ _ hs ih

theorem intercalate (separator : String) (ss ts : List String) (h : List.Forall₂ R ss ts) :
    R (separator.intercalate ss) (separator.intercalate ts) := by
  induction h with
  | nil => exact hR.refl _
  | cons hs htail ih =>
    cases htail with
    | nil => simpa using hs
    | cons ht htail =>
      rw [String.intercalate_cons_cons, String.intercalate_cons_cons]
      exact hR.append _ _ _ _ (hR.append _ _ _ _ hs (hR.refl separator)) ih

end Concatenable

namespace Template

abbrev Alike (R : String → String → Prop) : Template → Template → Prop :=
  List.Forall₂ (Piece.Alike R)

variable {R : String → String → Prop}

theorem Alike.refl (t : Template) : Alike R t t := List.forall₂_same.mpr fun p _ => .same p

theorem Alike.append {t t' u u' : Template} (ht : Alike R t t') (hu : Alike R u u') :
    Alike R (t ++ u) (t' ++ u') :=
  List.rel_append ht hu

theorem Alike.behind {t t' : Template} (h : Alike R t t') (s : String) :
    Alike R (.text s :: t) (.text s :: t') :=
  .cons (.same _) h

theorem Alike.parenthesized {t t' : Template} (h : Alike R t t') :
    Alike R (Template.parenthesized t) (Template.parenthesized t') :=
  (h.append (.refl _)).behind "("

theorem Alike.join (separator : String) {ts ts' : List Template}
    (h : List.Forall₂ (Alike R) ts ts') :
    Alike R (Template.join separator ts) (Template.join separator ts') := by
  induction h with
  | nil => exact .refl []
  | cons ht htail ih =>
    cases htail with
    | nil => exact ht
    | cons hu htail => exact ht.append (Alike.behind ih separator)

theorem Alike.fromTemplate {ts ts' : List Template} (h : List.Forall₂ (Alike R) ts ts') :
    Alike R (BoundSql.fromTemplate ts) (BoundSql.fromTemplate ts') := by
  cases h with
  | nil => exact .refl []
  | cons ht htail => exact (Alike.join ", " (.cons ht htail)).behind " FROM "

theorem alike_map {α : Type} (f g : α → Template) (xs : List α)
    (h : ∀ x ∈ xs, Alike R (f x) (g x)) : List.Forall₂ (Alike R) (xs.map f) (xs.map g) := by
  rw [List.forall₂_map_left_iff, List.forall₂_map_right_iff, List.forall₂_same]
  exact h

/-! ### Filling -/

theorem fillPiece_of_alike (b : Binder) (p p' : Piece) (hR : ∀ s, R s s) (h : p.Alike R p') :
    (∃ cause, fillPiece b p = .error cause ∧ fillPiece b p' = .error cause) ∨
      ∃ r r', fillPiece b p = .ok r ∧ fillPiece b p' = .ok r' ∧ R r.1 r'.1 ∧ r.2 = r'.2 := by
  cases h with
  | text h => exact Or.inr ⟨_, _, rfl, rfl, h, rfl⟩
  | same p =>
    cases hp : fillPiece b p with
    | error cause => exact Or.inl ⟨cause, rfl, rfl⟩
    | ok r => exact Or.inr ⟨r, r, rfl, rfl, hR _, rfl⟩

/-- Templates alike fail alike, or give related texts and the same binder. -/
theorem fill_of_alike (b : Binder) (t t' : Template) (hR : ∀ s, R s s) (h : Alike R t t') :
    (∃ cause, fill b t = .error cause ∧ fill b t' = .error cause) ∨
      ∃ r r', fill b t = .ok r ∧ fill b t' = .ok r' ∧ List.Forall₂ R r.1 r'.1 ∧ r.2 = r'.2 := by
  induction h generalizing b with
  | nil => exact Or.inr ⟨_, _, rfl, rfl, .nil, rfl⟩
  | cons hp _ ih =>
    rcases fillPiece_of_alike b _ _ hR hp with ⟨cause, he, he'⟩ | ⟨r, r', hr, hr', htext, hb⟩
    · exact Or.inl ⟨cause, by rw [fill, he], by rw [fill, he']⟩
    · rcases ih r.2 with ⟨cause, he, he'⟩ | ⟨rest, rest', hrest, hrest', htexts, hb'⟩
      · rw [hb] at he'
        refine Or.inl ⟨cause, ?_, ?_⟩
        · simp only [fill, hr, he]
        · simp only [fill, hr', he']
      · rw [hb] at hrest'
        refine Or.inr ⟨(r.1 :: rest.1, rest.2), (r'.1 :: rest'.1, rest'.2), ?_, ?_,
          .cons htext htexts, hb'⟩
        · simp only [fill, hr, hrest]
        · simp only [fill, hr', hrest']

end Template

/-! ### Templates of a clause -/

theorem assignments_plain (q : Quoting) (t : Table) (values : Option (List (String × Scalar))) :
    assignments q t values
      = (assignments .plain t values).map fun set => set.map fun a => (q.quote a.1, a.2) := by
  cases values with
  | none => simp [assignments, Except.map, Quoting.quote_plain]
  | some values =>
    simp only [assignments]
    split
    · rfl
    · split
      · rfl
      · simp [Except.map, Quoting.quote_plain]

namespace Clause

variable {R : String → String → Prop} (hR : Concatenable R) (q q' : Quoting)
  (hq : ∀ name, R (q.quote name) (q'.quote name))

include hR hq

theorem quoteColumn_related (c : ColumnRef) : R (q.quoteColumn c) (q'.quoteColumn c) := by
  rw [Quoting.quoteColumn, Quoting.quoteColumn]
  cases c.ownerName with
  | none => exact hq c.name
  | some owner =>
    exact hR.append _ _ _ _ (hR.append _ _ _ _ (hq owner) (hR.refl ".")) (hq c.name)

theorem sourceText_related (s : Source) : R (sourceText q s) (sourceText q' s) := by
  cases s with
  | table t => exact hq t.name
  | aliased a =>
    have has := hR.append _ _ _ _ (hq a.table.name) (hR.refl " AS ")
    exact hR.append _ _ _ _ has (hR.refl a.name)

theorem ownerText_related (o : Owner) : R (ownerText q o) (ownerText q' o) := by
  cases o with
  | source s => exact sourceText_related hR q q' hq s
  | named name => exact hq name

theorem insertTemplate_alike (t : Table) (values : Option (List (String × Scalar))) :
    Template.Alike R (insertTemplate q t values) (insertTemplate q' t values) := by
  rw [insertTemplate, insertTemplate, assignments_plain q, assignments_plain q']
  cases assignments .plain t values with
  | error cause => exact .refl _
  | ok set =>
    have hnames : List.Forall₂ R (set.map fun a => q.quote a.1)
        (set.map fun a => q'.quote a.1) := by
      rw [List.forall₂_map_left_iff, List.forall₂_map_right_iff, List.forall₂_same]
      exact fun a _ => hq a.1
    have hcolumns := hR.intercalate ", " _ _ hnames
    have hhead := hR.append _ _ _ _ (hR.refl "INSERT INTO ") (hq t.name)
    have hopen := hR.append _ _ _ _ hhead (hR.refl " (")
    have htext := hR.append _ _ _ _ (hR.append _ _ _ _ hopen hcolumns) (hR.refl ") VALUES (")
    simp only [Except.map, List.map_map]
    exact .cons (.text htext) (Template.Alike.refl _)

theorem updateTemplate_alike (t : Table) (values : Option (List (String × Scalar))) :
    Template.Alike R (updateTemplate q t values) (updateTemplate q' t values) := by
  rw [updateTemplate, updateTemplate, assignments_plain q, assignments_plain q']
  cases assignments .plain t values with
  | error cause => exact .refl _
  | ok set =>
    have hhead := hR.append _ _ _ _ (hR.refl "UPDATE ") (hq t.name)
    have htext := hR.append _ _ _ _ hhead (hR.refl " SET ")
    simp only [Except.map, List.map_map]
    refine .cons (.text htext) (Template.Alike.join ", " (Template.alike_map _ _ set ?_))
    intro a _
    exact .cons (.text (hR.append _ _ _ _ (hq a.1) (hR.refl " = "))) (Template.Alike.refl _)

omit hR hq in
theorem memberTemplate_alike (c : Clause) (ih : Template.Alike R (template q c) (template q' c)) :
    Template.Alike R (memberTemplate q c) (memberTemplate q' c) := by
  unfold memberTemplate
  split
  · exact ih.parenthesized
  · exact ih

omit hR hq in
theorem columnsTemplate_alike (columns : List Clause)
    (ih : ∀ c ∈ columns, Template.Alike R (template q c) (template q' c)) :
    Template.Alike R (columnsTemplate q columns) (columnsTemplate q' columns) := by
  unfold columnsTemplate
  split
  · exact .refl _
  · exact Template.Alike.join ", " (Template.alike_map _ _ columns ih)

theorem fromsTemplate_alike (columns froms : List Clause)
    (ih : ∀ c ∈ froms, Template.Alike R (template q c) (template q' c)) :
    Template.Alike R (fromsTemplate q columns froms) (fromsTemplate q' columns froms) := by
  unfold fromsTemplate
  split
  · refine Template.Alike.fromTemplate (Template.alike_map _ _ _ fun o _ => ?_)
    exact .cons (.text (ownerText_related hR q q' hq o)) .nil
  · exact Template.Alike.fromTemplate (Template.alike_map _ _ froms ih)

omit hR hq in
theorem whereTemplate_alike (condition : Option Clause)
    (ih : ∀ c ∈ condition, Template.Alike R (template q c) (template q' c)) :
    Template.Alike R (whereTemplate q condition) (whereTemplate q' condition) := by
  cases condition with
  | none => exact .refl []
  | some c => exact (ih c rfl).behind " WHERE "

omit hR hq in
theorem orderTemplate_alike (order : Option (OrderTerms Clause))
    (ih : ∀ o ∈ order, ∀ c ∈ OrderTerms.terms o, Template.Alike R (template q c) (template q' c)) :
    Template.Alike R (orderTemplate q order) (orderTemplate q' order) := by
  cases order with
  | none => exact .refl []
  | some o =>
    simp only [orderTemplate]
    split
    · exact .refl []
    · exact (Template.Alike.join _ (Template.alike_map _ _ o.terms (ih o rfl))).behind " ORDER BY "

theorem template_alike (c : Clause) : Template.Alike R (template q c) (template q' c) := by
  induction c using Clause.induct with
  | table t => exact .cons (.text (hq t.name)) .nil
  | named name => exact .cons (.text (hq name)) .nil
  | aliased a => exact .cons (.text (sourceText_related hR q q' hq (.aliased a))) .nil
  | column c => exact .cons (.text (quoteColumn_related hR q q' hq c)) .nil
  | bind key v => exact .refl _
  | null => exact .refl _
  | binary l o r ihl ihr => exact ihl.append (ihr.behind (" " ++ o.symbol ++ " "))
  | unary o c m ih => exact ((Template.Alike.refl (operatorText o)).append ih).append (.refl _)
  | junction o cs ih =>
    simp only [template, memberTemplates_eq_map]
    split
    · exact .refl _
    · exact Template.Alike.join _
        (Template.alike_map _ _ cs fun c hc => memberTemplate_alike q q' c (ih c hc))
  | group c ih =>
    simp only [template]
    split
    · exact ih
    · exact ih.parenthesized
  | sequence cs separator ih =>
    simp only [template, templates_eq_map]
    exact Template.Alike.join separator (Template.alike_map _ _ cs ih)
  | join l r on outer ihl ihr ihon =>
    have hsides := ihl.append (ihr.behind (if outer then " LEFT OUTER JOIN " else " JOIN "))
    exact hsides.append (ihon.behind " ON ")
  | select columns froms condition order limit offset distinct ihc ihf ihw iho =>
    rw [template_select, template_select]
    have hcolumns := columnsTemplate_alike q q' columns ihc
    have hfroms := hcolumns.append (fromsTemplate_alike hR q q' hq columns froms ihf)
    have hwhere := hfroms.append (whereTemplate_alike q q' condition ihw)
    have horder := hwhere.append (orderTemplate_alike q q' order iho)
    exact (horder.append (.refl _)).behind _
  | insert t values => exact insertTemplate_alike hR q q' hq t values
  | update t values condition ih =>
    rw [template_update, template_update]
    exact (updateTemplate_alike hR q q' hq t values).append
      (whereTemplate_alike q q' condition ih)
  | delete t condition ih =>
    rw [template_delete, template_delete]
    exact .cons (.text (hR.append _ _ _ _ (hR.refl "DELETE FROM ") (hq t.name)))
      (whereTemplate_alike q q' condition ih)

/-- A clause fails alike under two quotings, or gives related texts and the same parameters. -/
theorem compile_related (c : Clause) :
    (∃ cause, c.compile q = .error cause ∧ c.compile q' = .error cause) ∨
      ∃ s s', c.compile q = .ok s ∧ c.compile q' = .ok s' ∧ R s.sql s'.sql ∧
        s.params = s'.params := by
  rcases Template.fill_of_alike {} _ _ hR.refl (template_alike hR q q' hq c) with
    ⟨cause, he, he'⟩ | ⟨r, r', hr, hr', htexts, hb⟩
  · exact Or.inl ⟨cause, by rw [compile, he]; rfl, by rw [compile, he']; rfl⟩
  · exact Or.inr ⟨_, _, by rw [compile, hr]; rfl, by rw [compile, hr']; rfl,
      hR.join _ _ htexts, congrArg Binder.params hb⟩

end Clause

/-! ### Quotes taken away -/

/-- The text without some characters. -/
def without (marks : List Char) (s : String) : String :=
  String.ofList (s.toList.filter fun c => c ∉ marks)

/-- The first text without the marks is the second one, if that has no marks itself. -/
def Erases (marks : List Char) (s t : String) : Prop :=
  (∀ c ∈ t.toList, c ∉ marks) → without marks s = t

theorem concatenable_erases (marks : List Char) : Concatenable (Erases marks) where
  refl s h := by
    rw [without, List.filter_eq_self.mpr fun c hc => by simpa using h c hc, String.ofList_toList]
  append s t s' t' hs ht h := by
    rw [String.toList_append, List.forall_mem_append] at h
    have hsplit : without marks (s ++ t) = without marks s ++ without marks t := by
      simp [without]
    rw [hsplit, hs h.1, ht h.2]

theorem erases_quote (q : Quoting) (opening closing : Char)
    (hopening : q.opening.toList = [opening]) (hclosing : q.closing.toList = [closing])
    (name : String) :
    Erases [opening, closing] (q.quote name) (Quoting.plain.quote name) := by
  rw [Quoting.quote_plain]
  intro h
  have hmark : closing ∉ name.toList := fun hmem => h closing hmem (by simp)
  have hkept : name.toList.filter (fun c => c ∉ [opening, closing]) = name.toList :=
    List.filter_eq_self.mpr fun c hc => by simpa using h c hc
  have htext : (q.quote name).toList = opening :: (name.toList ++ [closing]) := by
    rw [q.quote_toList closing name hclosing, hopening,
      Quoting.doubleMark_of_not_mem closing _ hmark, List.singleton_append]
  rw [without, htext, List.filter_cons_of_neg (by simp), List.filter_append, hkept,
    List.filter_cons_of_neg (by simp), List.filter_nil, List.append_nil, String.ofList_toList]

namespace Clause

/--
Under any two quotings a clause fails with the same error or renders with the same parameters.
When the quotes are single characters that the statement without quotes does not hold, taking them
away from the quoted statement gives that one.
-/
theorem compile_requoted (c : Clause) :
    (∀ q q' : Quoting,
        (∃ cause, c.compile q = .error cause ∧ c.compile q' = .error cause) ∨
          ∃ s s', c.compile q = .ok s ∧ c.compile q' = .ok s' ∧ s.params = s'.params) ∧
      ∀ (q : Quoting) (opening closing : Char) (s : Statement), q.opening.toList = [opening] →
        q.closing.toList = [closing] → c.compile .plain = .ok s →
        opening ∉ s.sql.toList → closing ∉ s.sql.toList →
        ∃ s', c.compile q = .ok s' ∧ s'.params = s.params ∧
          without [opening, closing] s'.sql = s.sql := by
  constructor
  · intro q q'
    have htrue : Concatenable fun _ _ => True := ⟨fun _ => trivial, fun _ _ _ _ _ _ => trivial⟩
    rcases compile_related htrue q q' (fun _ => trivial) c with herror | ⟨s, s', hs, hs', _, hp⟩
    · exact Or.inl herror
    · exact Or.inr ⟨s, s', hs, hs', hp⟩
  · intro q opening closing s hopening hclosing hs hno hnc
    have hmarks : ∀ x ∈ s.sql.toList, x ∉ [opening, closing] := by
      intro x hx hmem
      rcases List.mem_pair.mp hmem with rfl | rfl
      · exact hno hx
      · exact hnc hx
    rcases compile_related (concatenable_erases [opening, closing]) q .plain
      (erases_quote q opening closing hopening hclosing) c with
      ⟨cause, _, he⟩ | ⟨s', u, hs', hu, herases, hp⟩
    · rw [he] at hs
      cases hs
    · rw [hu] at hs
      obtain rfl := Except.ok.inj hs
      exact ⟨s', hs', hp, herases hmarks⟩

/-- An update of games, and a selection from an alias whose name is never quoted. -/
def raisedScores : Clause :=
  .sequence [.update ⟨"games", [⟨"score", .integer, {}⟩]⟩ (some [("score", .int 7)])
      (some (.binary (.column { name := "score" }) .lt (.bind "score" (.int 5)))),
    .select [.column { name := "score", source := some (.aliased ⟨⟨"games", []⟩, "g"⟩) }] [] none
      none none none false] "; "

theorem compile_requoted_raisedScores :
    raisedScores.compile .plain = .ok
        ⟨"UPDATE games SET score = :score WHERE score < :score_1; "
          ++ "SELECT g.score FROM games AS g",
        ⟨[("score", .int 7), ("score_1", .int 5)]⟩⟩ ∧
      raisedScores.compile Quoting.brackets = .ok
        ⟨"UPDATE [games] SET [score] = :score WHERE [score] < :score_1; "
          ++ "SELECT [g].[score] FROM [games] AS g",
        ⟨[("score", .int 7), ("score_1", .int 5)]⟩⟩ ∧
      without ['[', ']'] ("UPDATE [games] SET [score] = :score WHERE [score] < :score_1; "
          ++ "SELECT [g].[score] FROM [games] AS g")
        = "UPDATE games SET score = :score WHERE score < :score_1; "
          ++ "SELECT g.score FROM games AS g" := by
  obtain ⟨s, hs, _, hwithout⟩ := (compile_requoted raisedScores).2 Quoting.brackets '[' ']' _ rfl
    rfl rfl (by decide) (by decide)
  have hsql := congrArg Statement.sql (Except.ok.inj hs)
  rw [← hsql] at hwithout
  exact ⟨rfl, rfl, hwithout⟩

end Clause

end BoundSql
