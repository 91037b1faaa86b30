import Mathlib.Data.List.TakeWhile
import BoundSql.Schema.Declaration

/-!
# Pieces of short texts

A short text is read from the front, piece by piece: spacing, an identifier, a given character, one
of some words. Each reader takes a piece in exactly one way, or fails where that piece does not begin.
Spacing and identifiers go on as long as they can, and of the words that fit the first one is taken,
which is the longest if no word stands before one that it begins.
-/

namespace BoundSql

/-! ### Runs of characters -/

/-- The text does not go on with a character of the class. -/
def Stops (p : Char → Bool) (rest : List Char) : Prop := ∀ c ∈ rest.head?, p c = false

theorem stops_nil (p : Char → Bool) : Stops p [] := fun _ h => nomatch h

theorem stops_cons (p : Char → Bool) (c : Char) (cs : List Char) :
    Stops p (c :: cs) ↔ p c = false := by
  simp [Stops]

theorem stops_dropWhile (p : Char → Bool) (cs : List Char) : Stops p (cs.dropWhile p) := by
  intro c hc
  have hhead := List.head?_dropWhile_not p cs
  rwa [hc] at hhead

theorem takeWhile_of_stops (p : Char → Bool) (cs rest : List Char) (hcs : ∀ c ∈ cs, p c = true)
    (hrest : Stops p rest) : (cs ++ rest).takeWhile p = cs := by
  have hnone : rest.takeWhile p = [] := by
    cases rest with
    | nil => rfl
    | cons c rest => simp [hrest c rfl]
  rw [List.takeWhile_append_of_pos hcs, hnone, List.append_nil]

theorem dropWhile_of_stops (p : Char → Bool) (cs rest : List Char) (hcs : ∀ c ∈ cs, p c = true)
    (hrest : Stops p rest) : (cs ++ rest).dropWhile p = rest := by
  rw [List.dropWhile_append_of_pos hcs]
  cases rest with
  | nil => rfl
  | cons c rest => simp [hrest c rfl]

/-! ### Spacing -/

/-- A property of the four characters of spacing. -/
theorem forall_isSpacing (P : Char → Prop) (h : P ' ' ∧ P '\t' ∧ P '\r' ∧ P '\n') (c : Char)
    (hc : isSpacing c = true) : P c := by
  simp only [isSpacing, Bool.or_eq_true, beq_iff_eq] at hc
  rcases hc with ((rfl | rfl) | rfl) | rfl
  · exact h.1
  · exact h.2.1
  · exact h.2.2.1
  · exact h.2.2.2

theorem exists_spacing (cs : List Char) :
    ∃ spacing : List Char, spacing.all isSpacing = true ∧ spacing ++ skipSpacing cs = cs :=
  ⟨cs.takeWhile isSpacing, List.all_takeWhile, List.takeWhile_append_dropWhile⟩

theorem skipSpacing_of_stops (spacing cs : List Char) (h : spacing.all isSpacing = true)
    (hcs : Stops isSpacing cs) : skipSpacing (spacing ++ cs) = cs :=
  dropWhile_of_stops isSpacing spacing cs (List.all_eq_true.mp h) hcs

theorem stops_spacing_append (p : Char → Bool) (spacing rest : List Char)
    (hp : ∀ c, isSpacing c = true → p c = false) (h : spacing.all isSpacing = true)
    (hrest : Stops p rest) : Stops p (spacing ++ rest) := by
  cases spacing with
  | nil => exact hrest
  | cons c cs =>
    rw [List.all_cons, Bool.and_eq_true] at h
    exact (stops_cons p c _).mpr (hp c h.1)

/-- Spacing ends before a character of a class that has no spacing in it. -/
theorem stops_isSpacing_cons (p : Char → Bool) (c : Char) (cs : List Char)
    (hp : ∀ c, isSpacing c = true → p c = false) (hc : p c = true) :
    Stops isSpacing (c :: cs) := by
  rw [stops_cons, Bool.eq_false_iff]
  intro hspacing
  rw [hp c hspacing] at hc
  cases hc

theorem skipSpacing_eq_nil_iff (cs : List Char) : skipSpacing cs = [] ↔ cs.all isSpacing = true := by
  rw [skipSpacing, List.dropWhile_eq_nil_iff, List.all_eq_true]

theorem expectEnd_eq_ok (cs : List Char) (u : Unit) :
    expectEnd cs = .ok u ↔ cs.all isSpacing = true := by
  rw [← skipSpacing_eq_nil_iff, expectEnd]
  cases skipSpacing cs <;> simp

theorem expectEnd_eq_error (cs rest : List Char) :
    expectEnd cs = .error rest ↔ skipSpacing cs = rest ∧ rest ≠ [] := by
  rw [expectEnd]
  cases hcs : skipSpacing cs with
  | nil =>
    simp only [List.isEmpty_nil, if_true, reduceCtorEq, false_iff]
    rintro ⟨rfl, hne⟩
    exact hne rfl
  | cons c rest' =>
    simp only [List.isEmpty_cons, Bool.false_eq_true, if_false, Except.error.injEq]
    refine ⟨?_, And.left⟩
    rintro rfl
    exact ⟨rfl, List.cons_ne_nil _ _⟩

/-! ### Characters and identifiers -/

theorem expectChar_eq_ok (mark : Char) (cs rest : List Char) :
    expectChar mark cs = .ok rest ↔ cs = mark :: rest := by
  cases cs with
  | nil => exact iff_of_false nofun nofun
  | cons c cs =>
    rw [expectChar, List.cons.injEq]
    by_cases h : c = mark <;> simp [h]

theorem expectChar_eq_error (mark : Char) (cs rest : List Char) :
    expectChar mark cs = .error rest ↔ cs = rest ∧ Stops (· == mark) rest := by
  cases cs with
  | nil =>
    rw [expectChar, Except.error.injEq]
    refine ⟨?_, And.left⟩
    rintro rfl
    exact ⟨rfl, stops_nil _⟩
  | cons c cs =>
    rw [expectChar]
    by_cases hc : c = mark
    · simp only [hc, if_true, reduceCtorEq, false_iff]
      rintro ⟨rfl, hstops⟩
      simp [stops_cons] at hstops
    · rw [if_neg hc, Except.error.injEq]
      refine ⟨?_, And.left⟩
      rintro rfl
      exact ⟨rfl, (stops_cons ..).mpr (beq_false_of_ne hc)⟩

/-- The identifier in front goes on as long as there are characters of identifiers. -/
theorem takeIdentifier_eq_ok (cs name rest : List Char) :
    takeIdentifier cs = .ok (name, rest) ↔
      isIdentifierText name = true ∧ cs = name ++ rest ∧ Stops isIdentifierPart rest := by
  constructor
  · intro h
    cases cs with
    | nil => cases h
    | cons c cs =>
      have hcs := append_of_takeIdentifier h
      rw [takeIdentifier] at h
      split at h
      · next hc =>
        obtain ⟨rfl, rfl⟩ := Prod.mk.inj (Except.ok.inj h)
        refine ⟨?_, hcs.symm, stops_dropWhile isIdentifierPart cs⟩
        rw [isIdentifierText, hc, List.all_takeWhile, Bool.and_true]
      · cases h
  · rintro ⟨hname, rfl, hrest⟩
    cases name with
    | nil => cases hname
    | cons c cs =>
      rw [isIdentifierText, Bool.and_eq_true, List.all_eq_true] at hname
      rw [List.cons_append, takeIdentifier, if_pos hname.1,
        takeWhile_of_stops isIdentifierPart cs rest hname.2 hrest,
        dropWhile_of_stops isIdentifierPart cs rest hname.2 hrest]

theorem takeIdentifier_eq_error (cs rest : List Char) :
    takeIdentifier cs = .error rest ↔ cs = rest ∧ Stops isIdentifierStart rest := by
  cases cs with
  | nil =>
    rw [takeIdentifier, Except.error.injEq]
    refine ⟨?_, And.left⟩
    rintro rfl
    exact ⟨rfl, stops_nil _⟩
  | cons c cs =>
    rw [takeIdentifier]
    by_cases hc : isIdentifierStart c = true
    · simp only [hc, if_true, reduceCtorEq, false_iff]
      rintro ⟨rfl, hstops⟩
      rw [stops_cons, hc] at hstops
      cases hstops
    · rw [if_neg hc, Except.error.injEq]
      refine ⟨?_, And.left⟩
      rintro rfl
      exact ⟨rfl, (stops_cons ..).mpr (Bool.eq_false_iff.mpr hc)⟩

theorem stops_identifier (name rest : List Char) (h : isIdentifierText name = true) :
    Stops isSpacing (name ++ rest) := by
  cases name with
  | nil => cases h
  | cons c cs =>
    rw [isIdentifierText, Bool.and_eq_true] at h
    exact stops_isSpacing_cons isIdentifierStart c _
      (forall_isSpacing (isIdentifierStart · = false) (by decide)) h.1

/-! ### Words -/

/--
If no word stands before one that it begins, the first word that fits is the longest one: every word
that fits begins it.
-/
theorem prefix_of_first {α : Type} (spelling : α → List Char) (before after : List α) (x : α)
    (text : List Char) (hx : spelling x <+: text)
    (hbefore : ∀ y ∈ before, ¬spelling y <+: text)
    (hordered : (before ++ x :: after).Pairwise fun y z => ¬spelling y <+: spelling z)
    (y : α) (hy : y ∈ before ++ x :: after) (hfits : spelling y <+: text) :
    spelling y <+: spelling x := by
  rcases List.mem_append.mp hy with hy | hy
  · exact absurd hfits (hbefore y hy)
  · rcases List.mem_cons.mp hy with rfl | hy
    · exact List.prefix_rfl
    · -- A later word that fits is no longer, or `x` would begin it.
      have hafter := List.rel_of_pairwise_cons (List.pairwise_append.mp hordered).2.1 hy
      exact (List.prefix_or_prefix_of_prefix hfits hx).resolve_right hafter

end BoundSql
