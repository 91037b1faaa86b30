import Mathlib.Data.List.Forall2
import BoundSql.Proofs.Filling
import BoundSql.Text.Identifier

/-!
# Scanning for placeholders

A driver finds the placeholders of a statement by its colons: behind each one stands a name, which
ends before the first character that cannot belong to it. The scan of a filled template finds the
names of its sites when no text of the template holds a colon and when what follows a site cannot
prolong its name.
-/

namespace BoundSql

/-- The names behind the colons of a text, from left to right. -/
def placeholders : List Char → List String
  | [] => []
  | c :: cs =>
    if c = ':' then String.ofList (cs.takeWhile isIdentifierPart) :: placeholders cs
    else placeholders cs

/-- A text that does not prolong a name that stands before it. -/
def Ended (cs : List Char) : Prop := ∀ c ∈ cs.head?, isIdentifierPart c = false

/-- A text of letters, digits and underscores. -/
def IsWord (cs : List Char) : Prop := ∀ c ∈ cs, isIdentifierPart c = true

theorem ended_nil : Ended [] := fun _ h => nomatch h

theorem ended_cons (c : Char) (cs : List Char) (h : isIdentifierPart c = false) :
    Ended (c :: cs) := by
  intro d hd
  rw [← Option.some.inj hd]
  exact h

theorem ended_append (cs rest : List Char) (hcs : cs ≠ []) (h : Ended cs) :
    Ended (cs ++ rest) := by
  obtain ⟨c, cs, rfl⟩ := List.exists_cons_of_ne_nil hcs
  exact ended_cons c _ (h c rfl)

theorem not_mem_of_isWord (cs : List Char) (h : IsWord cs) : ':' ∉ cs := by
  intro hmem
  exact absurd (h ':' hmem) (by decide)

theorem isWord_of_isIdentifier (name : String) (h : isIdentifier name = true) :
    IsWord name.toList := by
  unfold isIdentifier at h
  intro c hc
  cases hn : name.toList with
  | nil => exact absurd hc (by simp [hn])
  | cons d ds =>
    rw [hn, isIdentifierText, Bool.and_eq_true, List.all_eq_true] at h
    rw [hn] at hc
    rcases List.mem_cons.mp hc with hd | hds
    · have hstart := h.1
      simp only [isIdentifierStart, Bool.or_eq_true] at hstart
      simp only [hd, isIdentifierPart, Char.isAlphanum, Bool.or_eq_true]
      tauto
    · exact h.2 c hds

theorem isWord_digits (n : Nat) : IsWord (Nat.toDigits 10 n) := by
  intro c hc
  have hdigit : c.isDigit = true := Nat.isDigit_of_mem_toDigits (by decide) (by decide) hc
  simp [isIdentifierPart, Char.isAlphanum, hdigit]

theorem isWord_numbered (key : String) (n : Nat) (h : IsWord key.toList) :
    IsWord (Binder.numbered key n).toList := by
  intro c hc
  rw [Binder.numbered_toList, List.mem_append, List.mem_cons] at hc
  rcases hc with hkey | rfl | hdigits
  · exact h c hkey
  · rfl
  · exact isWord_digits n c hdigits

theorem placeholders_append (cs rest : List Char) (h : ':' ∉ cs) :
    placeholders (cs ++ rest) = placeholders rest := by
  induction cs with
  | nil => rfl
  | cons c cs ih =>
    rw [List.mem_cons, not_or] at h
    rw [List.cons_append, placeholders, if_neg (Ne.symm h.1), ih h.2]

theorem placeholder_toList (name : String) :
    (Binder.placeholder name).toList = ':' :: name.toList := by
  simp [Binder.placeholder]

theorem placeholders_placeholder (name : String) (rest : List Char) (h : IsWord name.toList)
    (hrest : Ended rest) :
    placeholders ((Binder.placeholder name).toList ++ rest) = name :: placeholders rest := by
  have hstop : rest.takeWhile isIdentifierPart = [] := by
    cases rest with
    | nil => rfl
    | cons c cs => rw [List.takeWhile_cons, hrest c rfl]; rfl
  have hname : (name.toList ++ rest).takeWhile isIdentifierPart = name.toList := by
    rw [List.takeWhile_append_of_pos h, hstop, List.append_nil]
  rw [placeholder_toList, List.cons_append, placeholders, if_pos rfl, hname,
    String.ofList_toList, placeholders_append _ rest (not_mem_of_isWord _ h)]

namespace Template

/-- Whatever names its sites are given, the template does not prolong a name before it. -/
def Apart : Template → Prop
  | [] => True
  | .text s :: t => if s = "" then Apart t else Ended s.toList
  | .refuse _ :: t => Apart t
  | .bind .. :: _ | .record .. :: _ | .reserve _ :: _ => True

/-- No text holds a colon, and the names of the sites are words that nothing prolongs. -/
def Legible : Template → Prop
  | [] => True
  | .text s :: t => ':' ∉ s.toList ∧ Legible t
  | .refuse _ :: t => Legible t
  | .bind name _ :: t | .record name _ :: t | .reserve name :: t =>
    IsWord name.toList ∧ Apart t ∧ Legible t

theorem apart_append (t u : Template) (ht : Apart t) (hu : Apart u) : Apart (t ++ u) := by
  induction t with
  | nil => exact hu
  | cons p t ih =>
    cases p with
    | text s =>
      by_cases hs : s = ""
      · simp only [Apart, List.cons_append, hs, ite_true] at ht ⊢
        exact ih ht
      · simp only [Apart, List.cons_append, hs, ite_false] at ht ⊢
        exact ht
    | refuse cause => exact ih ht
    | bind key v => trivial
    | record name v => trivial
    | reserve name => trivial

theorem legible_append (t u : Template) (ht : Legible t) (hu : Legible u) (hau : Apart u) :
    Legible (t ++ u) := by
  induction t with
  | nil => exact hu
  | cons p t ih =>
    cases p with
    | text s => exact ⟨ht.1, ih ht.2⟩
    | refuse cause => exact ih ht
    | bind key v => exact ⟨ht.1, apart_append t u ht.2.1 hau, ih ht.2.2⟩
    | record name v => exact ⟨ht.1, apart_append t u ht.2.1 hau, ih ht.2.2⟩
    | reserve name => exact ⟨ht.1, apart_append t u ht.2.1 hau, ih ht.2.2⟩

theorem apart_text_cons (s : String) (t : Template) (hs : s ≠ "") (h : Ended s.toList) :
    Apart (.text s :: t) := by
  simp only [Apart, hs, ite_false]
  exact h

theorem legible_parenthesized (t : Template) (h : Legible t) : Legible (parenthesized t) := by
  refine legible_append (.text "(" :: t) [.text ")"] ⟨by decide, h⟩ ⟨by decide, trivial⟩ ?_
  exact apart_text_cons ")" [] (by decide) (ended_cons ')' [] (by decide))

/-- A text that can stand between two templates. -/
def Separates (separator : String) : Prop :=
  separator ≠ "" ∧ Ended separator.toList ∧ ':' ∉ separator.toList

theorem legible_join (separator : String) (ts : List Template) (hs : Separates separator)
    (h : ∀ t ∈ ts, Legible t) : Legible (join separator ts) := by
  induction ts with
  | nil => trivial
  | cons t ts ih =>
    obtain ⟨ht, hts⟩ := List.forall_mem_cons.mp h
    cases ts with
    | nil => exact ht
    | cons u us => exact legible_append t _ ht ⟨hs.2.2, ih hts⟩ (apart_text_cons _ _ hs.1 hs.2.1)

/-! ### The scan -/

/-- The characters of a template whose sites are given names. -/
def chars (t : Template) (names : List String) : List Char :=
  (t.written names).flatMap String.toList

theorem chars_text_cons (s : String) (t : Template) (names : List String) :
    chars (.text s :: t) names = s.toList ++ chars t names := rfl

theorem ended_of_apart (t : Template) (names : List String) (h : Apart t)
    (hfits : List.Forall₂ Site.Fits t.sites names) : Ended (chars t names) := by
  have hsite : ∀ (p : Piece) (ps : Template) (s : Site), p.site? = some s →
      List.Forall₂ Site.Fits (sites (p :: ps)) names → Ended (chars (p :: ps) names) := by
    intro p ps s hp hfits
    rw [sites, List.filterMap_cons_some hp] at hfits
    cases hfits with
    | cons _ _ =>
      rw [chars, written_of_site p s _ _ _ hp, List.flatMap_cons, placeholder_toList]
      exact ended_cons ':' _ (by decide)
  induction t with
  | nil => exact ended_nil
  | cons p t ih =>
    cases p with
    | text s =>
      rw [chars_text_cons]
      by_cases hs : s = ""
      · simp only [Apart, hs, ite_true] at h
        rw [hs]
        exact ih h hfits
      · simp only [Apart, hs, ite_false] at h
        exact ended_append _ _ (by simpa using hs) h
    | refuse cause => exact ih h hfits
    | bind key v => exact hsite _ t _ rfl hfits
    | record name v => exact hsite _ t _ rfl hfits
    | reserve name => exact hsite _ t _ rfl hfits

theorem placeholders_site_cons (p : Piece) (s : Site) (t : Template) (name : String)
    (names : List String) (hp : p.site? = some s) (hword : IsWord name.toList) (ht : Apart t)
    (hfits : List.Forall₂ Site.Fits t.sites names) :
    placeholders (chars (p :: t) (name :: names)) = name :: placeholders (chars t names) := by
  rw [chars, written_of_site p s t name names hp, List.flatMap_cons]
  exact placeholders_placeholder name _ hword (ended_of_apart t names ht hfits)

/-- The scan of a legible template finds the names of its sites. -/
theorem placeholders_chars (t : Template) (names : List String) (h : Legible t)
    (hfits : List.Forall₂ Site.Fits t.sites names) : placeholders (t.chars names) = names := by
  induction t generalizing names with
  | nil =>
    cases hfits
    rfl
  | cons p t ih =>
    cases p with
    | text s =>
      rw [chars_text_cons, placeholders_append _ _ h.1]
      exact ih names h.2 hfits
    | refuse cause => exact ih names h hfits
    | bind key v =>
      cases hfits with
      | @cons _ name _ names hname hrest =>
        obtain ⟨n, _, rfl⟩ := hname
        rw [placeholders_site_cons _ _ t _ names rfl (isWord_numbered key n h.1) h.2.1 hrest,
          ih names h.2.2 hrest]
    | record column v =>
      cases hfits with
      | @cons _ name _ names hname hrest =>
        obtain rfl := hname
        rw [placeholders_site_cons _ _ t _ names rfl h.1 h.2.1 hrest, ih names h.2.2 hrest]
    | reserve column =>
      cases hfits with
      | @cons _ name _ names hname hrest =>
        obtain rfl := hname
        rw [placeholders_site_cons _ _ t _ names rfl h.1 h.2.1 hrest, ih names h.2.2 hrest]

end Template

end BoundSql
