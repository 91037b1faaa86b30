import BoundSql.Proofs.Clause.Sites

/-!
# Association of joins

Joins inside one another are written without parentheses, on either side. With sources and
conditions taken as atoms, the words `JOIN`, `LEFT OUTER JOIN` and `ON` alone tell how the joins are
nested: every text of them reads as one tree at most, since a reader that goes from left to right
with a stack finds it. The tree that the text of a clause reads as is the one that was written.
-/

namespace BoundSql

namespace Joins

/-- A word of a text of joins whose sources and conditions are atoms. -/
inductive Word (α : Type) where
  | atom (a : α)
  | join (outer : Bool)
  | on
deriving DecidableEq

/-- What a text of joins is read as. -/
inductive Tree (α : Type) where
  | source (a : α)
  | join (left right : Tree α) (on : α) (outer : Bool)
deriving DecidableEq

variable {α : Type}

/-- The words read as a tree. -/
inductive Reads : List (Word α) → Tree α → Prop
  | source (a : α) : Reads [.atom a] (.source a)
  | join (ws vs : List (Word α)) (l r : Tree α) (on : α) (outer : Bool) (hl : Reads ws l)
    (hr : Reads vs r) : Reads (ws ++ .join outer :: vs ++ [.on, .atom on]) (.join l r on outer)

/-- The words that a tree is written with. -/
def Tree.words : Tree α → List (Word α)
  | source a => [.atom a]
  | join l r on outer => words l ++ .join outer :: words r ++ [.on, .atom on]

theorem reads_iff (ws : List (Word α)) (t : Tree α) : Reads ws t ↔ ws = t.words := by
  constructor
  · intro h
    induction h with
    | source a => rfl
    | join ws vs l r on outer hl hr ihl ihr => rw [Tree.words, ihl, ihr]
  · rintro rfl
    induction t with
    | source a => exact .source a
    | join l r on outer ihl ihr => exact .join _ _ l r on outer ihl ihr

/-! ### The reader -/

/-- What is read and not yet part of a larger tree. -/
inductive Item (α : Type) where
  | tree (t : Tree α)
  | join (outer : Bool)
  | on

namespace Reader

/-- An atom after an `ON` is the condition of the last two trees; any other one is a source. -/
def step : List (Item α) → Word α → List (Item α)
  | .on :: .tree r :: .join outer :: .tree l :: stack, .atom a => .tree (.join l r a outer) :: stack
  | stack, .atom a => .tree (.source a) :: stack
  | stack, .join outer => .join outer :: stack
  | stack, .on => .on :: stack

def run (stack : List (Item α)) (ws : List (Word α)) : List (Item α) := ws.foldl step stack

theorem run_append (stack : List (Item α)) (ws vs : List (Word α)) :
    run stack (ws ++ vs) = run (run stack ws) vs := List.foldl_append

theorem step_source (stack : List (Item α)) (a : α) (h : stack.head? ≠ some .on) :
    step stack (.atom a) = .tree (.source a) :: stack := by
  cases stack with
  | nil => rfl
  | cons item stack =>
    cases item with
    | tree t => rfl
    | join outer => rfl
    | on => exact absurd rfl h

theorem run_words (t : Tree α) (stack : List (Item α)) (h : stack.head? ≠ some .on) :
    run stack t.words = .tree t :: stack := by
  -- The tree may stand after any item but an `ON`, so that it can be either side of a join.
  induction t generalizing stack with
  | source a => exact step_source stack a h
  | join l r on outer ihl ihr =>
    have hleft : run stack l.words = .tree l :: stack := ihl stack h
    have hright : run (.join outer :: .tree l :: stack) r.words
        = .tree r :: .join outer :: .tree l :: stack := ihr _ nofun
    calc run stack (Tree.join l r on outer).words
        = run (run (run stack l.words) (.join outer :: r.words)) [.on, .atom on] := by
          rw [Tree.words, run_append, run_append]
      _ = run (run (.join outer :: .tree l :: stack) r.words) [.on, .atom on] := by
          rw [hleft]
          rfl
      _ = .tree (.join l r on outer) :: stack := by
          rw [hright]
          rfl

end Reader

theorem words_inj (t u : Tree α) : t.words = u.words ↔ t = u := by
  refine ⟨fun h => ?_, congrArg Tree.words⟩
  have hrun := congrArg (Reader.run []) h
  rw [Reader.run_words t [] nofun, Reader.run_words u [] nofun] at hrun
  simpa using hrun

/-- A tree is the only one that the words it is written with read as. -/
theorem reads_words_iff (t u : Tree α) : Reads t.words u ↔ u = t := by
  rw [reads_iff, words_inj]
  exact eq_comm

/-! ### Texts -/

def Word.text : Word String → String
  | atom a => a
  | join outer => if outer then " LEFT OUTER JOIN " else " JOIN "
  | on => " ON "

def Tree.text (t : Tree String) : String := String.join (t.words.map Word.text)

theorem Tree.text_source (a : String) : (Tree.source a).text = a := by
  simp [text, words, Word.text]

theorem Tree.text_join (l r : Tree String) (on : String) (outer : Bool) :
    (Tree.join l r on outer).text
      = l.text ++ (if outer then " LEFT OUTER JOIN " else " JOIN ") ++ r.text ++ " ON " ++ on := by
  simp [text, words, Word.text, String.append_assoc]

end Joins

/-! ### Clauses -/

namespace Template

theorem fill_around_ok (b b' : Binder) (t u : Template) (separator : String) (texts : List String)
    (h : fill b (t ++ .text separator :: u) = .ok (texts, b')) :
    ∃ first c rest, fill b t = .ok (first, c) ∧ fill c u = .ok (rest, b') ∧
      texts = first ++ separator :: rest := by
  obtain ⟨first, c, behind, hfirst, hbehind, htexts⟩ := fill_append_ok b b' _ _ texts h
  obtain ⟨head, tail, hhead, htail, hr⟩ := fill_cons_ok c _ u (behind, b') hbehind
  obtain rfl := Except.ok.inj hhead
  obtain ⟨rfl, rfl⟩ := Prod.mk.inj hr
  exact ⟨first, c, tail.1, hfirst, htail, htexts⟩

end Template

open Joins (Reads)

namespace Clause

/-- The clause is rendered as a tree of texts, from one binder to another: its joins are the
joins of the tree, inner or outer as they are, and what is no join is a source. -/
inductive Renders (q : Quoting) : Binder → Clause → Joins.Tree String → Binder → Prop
  | source (b b' : Binder) (c : Clause) (texts : List String) (hc : c.join? = none)
    (h : Template.fill b (c.template q) = .ok (texts, b')) :
    Renders q b c (.source (String.join texts)) b'
  | join (b b₁ b₂ b' : Binder) (l r on : Clause) (tl tr : Joins.Tree String) (texts : List String)
    (outer : Bool) (hl : Renders q b l tl b₁) (hr : Renders q b₁ r tr b₂)
    (hon : Template.fill b₂ (on.template q) = .ok (texts, b')) :
    Renders q b (.join l r on outer) (.join tl tr (String.join texts) outer) b'

theorem renders_of_fill (q : Quoting) (b b' : Binder) (c : Clause) (texts : List String)
    (h : Template.fill b (c.template q) = .ok (texts, b')) :
    ∃ t, Renders q b c t b' ∧ String.join texts = t.text := by
  induction c using Clause.induct generalizing b b' texts with
  | join l r on outer ihl ihr _ =>
    obtain ⟨sides, b₂, condition, hsides, hon, rfl⟩ := Template.fill_around_ok b b' _ _ _ texts h
    obtain ⟨left, b₁, right, hleft, hright, rfl⟩ := Template.fill_around_ok b b₂ _ _ _ sides hsides
    obtain ⟨tl, htl, hl⟩ := ihl b b₁ left hleft
    obtain ⟨tr, htr, hr⟩ := ihr b₁ b₂ right hright
    refine ⟨_, .join b b₁ b₂ b' l r on tl tr condition outer htl htr hon, ?_⟩
    rw [Joins.Tree.text_join, ← hl, ← hr]
    simp [String.append_assoc]
  | _ => exact ⟨_, .source b b' _ texts rfl h, (Joins.Tree.text_source _).symm⟩

/--
The text that a clause renders to is made of the words of a tree of joins, with the text of each
source and of each condition as one word. These words read as exactly one tree, and that tree is
the clause as it is rendered: with its joins, inner or outer as they are, nested in the same way on
the left and on the right, and with the text of its condition at every one of them.
-/
theorem compile_associates (q : Quoting) (c : Clause) (s : Statement) (h : c.compile q = .ok s) :
    ∃ t b, Renders q {} c t b ∧ s.sql = t.text ∧ ∀ u, Reads t.words u ↔ u = t := by
  obtain ⟨texts, b, hfill, hsql, _⟩ := compile_ok q c s h
  obtain ⟨t, hrenders, htext⟩ := renders_of_fill q {} b c texts hfill
  exact ⟨t, b, hrenders, hsql.trans htext, Joins.reads_words_iff t⟩

/-- A join on either side of a join: people with their bosses, and games with their high scores. -/
def ownersOfGames : Clause :=
  let people : Table := ⟨"people", [⟨"id", .integer, {}⟩, ⟨"boss", .integer, {}⟩]⟩
  let games : Table := ⟨"games", [⟨"owner", .integer, {}⟩]⟩
  let boss : Source := .aliased ⟨people, "boss"⟩
  let column (s : Source) (name : String) : Clause := .column { name, source := some s }
  .join
    (.join (.table people) boss.toClause
      (.binary (column boss "id") .eq (column (.table people) "boss")) true)
    (.join (.table games) (.named "scores")
      (.binary (.column { name := "points" }) .gt (.bind "points" (.int 90))) false)
    (.binary (column (.table games) "owner") .eq (column (.table people) "id")) false

theorem compile_associates_ownersOfGames :
    ownersOfGames.compile .plain = .ok
        ⟨"people LEFT OUTER JOIN people AS boss ON boss.id = people.boss JOIN "
          ++ "games JOIN scores ON points > :points_1 ON games.owner = people.id",
        ⟨[("points_1", .int 90)]⟩⟩ ∧
      ∃ t b, Renders .plain {} ownersOfGames t b ∧
        "people LEFT OUTER JOIN people AS boss ON boss.id = people.boss JOIN "
          ++ "games JOIN scores ON points > :points_1 ON games.owner = people.id" = t.text ∧
        ∀ u, Reads t.words u ↔ u = t :=
  ⟨rfl, compile_associates .plain ownersOfGames _ rfl⟩

end Clause

end BoundSql
