import BoundSql.Proofs.Parameter.Sites
import BoundSql.Template

/-!
# Filling templates

Filling a template that refuses nothing is naming its sites: the texts that come out are those of
the template, with the placeholder of its name at each site. A template that refuses something
cannot be filled.
-/

namespace BoundSql

def Piece.site? : Piece → Option Site
  | .bind key v => some (.bind key v)
  | .record column v => some (.record column v)
  | .reserve column => some (.reserve column)
  | _ => none

namespace Template

/-- The sites of a template, from left to right. -/
def sites (t : Template) : List Site := t.filterMap Piece.site?

/-- The template refuses nothing. -/
def Whole (t : Template) : Prop := ∀ cause, Piece.refuse cause ∉ t

/-- The texts of a template whose sites are given names from left to right. -/
def written : Template → List String → List String
  | [], _ => []
  | .text s :: ps, names => s :: written ps names
  | .refuse _ :: ps, names => written ps names
  | _ :: ps, name :: names => Binder.placeholder name :: written ps names
  | _ :: ps, [] => written ps []

/-! ### Sites and refusals of the parts -/

@[simp] theorem sites_nil : sites [] = [] := rfl

@[simp] theorem sites_text_cons (s : String) (t : Template) : sites (.text s :: t) = sites t := rfl

@[simp] theorem sites_singleton (p : Piece) : sites [p] = p.site?.toList := by
  cases h : p.site? <;> simp [sites, h]

@[simp] theorem sites_append (t u : Template) : sites (t ++ u) = sites t ++ sites u :=
  List.filterMap_append

@[simp] theorem sites_parenthesized (t : Template) : sites (parenthesized t) = sites t := by
  simp only [parenthesized, sites_append, sites_text_cons, List.cons_append, sites_nil,
    List.append_nil]

theorem sites_join (separator : String) (ts : List Template) :
    sites (join separator ts) = ts.flatMap sites := by
  induction ts with
  | nil => rfl
  | cons t ts ih =>
    cases ts with
    | nil => simp only [join, List.flatMap_cons, List.flatMap_nil, List.append_nil]
    | cons u us => simp only [join, sites_append, sites_text_cons, ih, List.flatMap_cons]

theorem whole_nil : Whole [] := fun _ h => List.not_mem_nil h

@[simp] theorem whole_text_cons (s : String) (t : Template) : Whole (.text s :: t) ↔ Whole t := by
  simp [Whole]

@[simp] theorem whole_append (t u : Template) : Whole (t ++ u) ↔ Whole t ∧ Whole u := by
  simp [Whole, forall_and]

theorem not_whole_refuse (cause : Error) (t : Template) : ¬ Whole (.refuse cause :: t) :=
  fun h => h cause (List.mem_cons_self ..)

@[simp] theorem whole_parenthesized (t : Template) : Whole (parenthesized t) ↔ Whole t := by
  simp [parenthesized, whole_nil]

theorem whole_join (separator : String) (ts : List Template) :
    Whole (join separator ts) ↔ ∀ t ∈ ts, Whole t := by
  induction ts with
  | nil => simp [join, whole_nil]
  | cons t ts ih =>
    cases ts with
    | nil => simp [join]
    | cons u us =>
      simp only [join, whole_append, whole_text_cons, ih, List.forall_mem_cons]

/-! ### Filling -/

theorem fillPiece_of_site (b : Binder) (p : Piece) (s : Site) (h : p.site? = some s) :
    fillPiece b p = (b.nameSite s).map fun r => (Binder.placeholder r.1, r.2) := by
  cases p with
  | text _ => simp [Piece.site?] at h
  | refuse _ => simp [Piece.site?] at h
  | bind key v =>
    simp only [Piece.site?, Option.some.injEq] at h
    rw [← h]
    rfl
  | record column v =>
    simp only [Piece.site?, Option.some.injEq] at h
    rw [← h]
    simp only [fillPiece, Binder.nameSite]
    cases b.record column v <;> rfl
  | reserve column =>
    simp only [Piece.site?, Option.some.injEq] at h
    rw [← h]
    simp only [fillPiece, Binder.nameSite]
    cases b.reserve column <;> rfl

theorem written_of_site (p : Piece) (s : Site) (t : Template) (name : String)
    (names : List String) (h : p.site? = some s) :
    written (p :: t) (name :: names) = Binder.placeholder name :: t.written names := by
  cases p with
  | text _ => simp [Piece.site?] at h
  | refuse _ => simp [Piece.site?] at h
  | bind key v => rfl
  | record column v => rfl
  | reserve column => rfl

theorem fill_cons_of_site (b : Binder) (p : Piece) (s : Site) (t : Template)
    (h : p.site? = some s)
    (ih : ∀ b : Binder, fill b t = (b.nameSites t.sites).map fun r => (t.written r.1, r.2)) :
    fill b (p :: t)
      = (b.nameSites (sites (p :: t))).map fun r => (written (p :: t) r.1, r.2) := by
  have hsites : sites (p :: t) = s :: t.sites := List.filterMap_cons_some h
  rw [hsites, fill, Binder.nameSites, fillPiece_of_site b p s h]
  cases b.nameSite s with
  | error cause => rfl
  | ok r =>
    simp only [Except.map, ih]
    cases r.2.nameSites t.sites with
    | error cause => rfl
    | ok r' => simp only [written_of_site p s t r.1 r'.1 h]

/-- Filling a template that refuses nothing is naming its sites. -/
theorem fill_of_whole (b : Binder) (t : Template) (ht : t.Whole) :
    fill b t = (b.nameSites t.sites).map fun r => (t.written r.1, r.2) := by
  induction t generalizing b with
  | nil => rfl
  | cons p t ih =>
    have htail : Whole t := fun cause hmem => ht cause (List.mem_cons_of_mem _ hmem)
    cases p with
    | text s =>
      rw [fill, fillPiece, sites_text_cons]
      simp only [ih b htail]
      cases b.nameSites (sites t) <;> rfl
    | refuse cause => exact absurd ht (not_whole_refuse cause t)
    | bind key v => exact fill_cons_of_site b _ _ t rfl fun b => ih b htail
    | record column v => exact fill_cons_of_site b _ _ t rfl fun b => ih b htail
    | reserve column => exact fill_cons_of_site b _ _ t rfl fun b => ih b htail

theorem fill_cons_ok (b : Binder) (p : Piece) (t : Template) (r : List String × Binder)
    (h : fill b (p :: t) = .ok r) :
    ∃ first rest, fillPiece b p = .ok first ∧ fill first.2 t = .ok rest ∧
      r = (first.1 :: rest.1, rest.2) := by
  rw [fill] at h
  cases hp : fillPiece b p with
  | error cause => simp [hp] at h
  | ok first =>
    cases ht : fill first.2 t with
    | error cause => simp [hp, ht] at h
    | ok rest =>
      simp only [hp, ht, Except.ok.injEq] at h
      exact ⟨first, rest, rfl, ht, h.symm⟩

theorem fill_append_eq_bind (b : Binder) (t u : Template) :
    fill b (t ++ u)
      = (fill b t).bind fun r => (fill r.2 u).map fun r' => (r.1 ++ r'.1, r'.2) := by
  induction t generalizing b with
  | nil =>
    rw [List.nil_append, fill, Except.bind]
    cases fill b u <;> rfl
  | cons p t ih =>
    rw [List.cons_append, fill, fill]
    cases fillPiece b p with
    | error cause => rfl
    | ok r =>
      simp only [ih]
      cases fill r.2 t with
      | error cause => rfl
      | ok r' =>
        simp only [Except.bind]
        cases fill r'.2 u <;> rfl

theorem fill_append_ok (b b' : Binder) (t u : Template) (texts : List String)
    (h : fill b (t ++ u) = .ok (texts, b')) :
    ∃ first c rest, fill b t = .ok (first, c) ∧ fill c u = .ok (rest, b') ∧
      texts = first ++ rest := by
  induction t generalizing b texts with
  | nil => exact ⟨[], b, texts, rfl, h, rfl⟩
  | cons p t ih =>
    obtain ⟨head, tail, hp, ht, hr⟩ := fill_cons_ok b p (t ++ u) (texts, b') h
    rw [Prod.mk.injEq] at hr
    obtain ⟨first, c, rest, hfirst, hrest, htail⟩ := ih head.2 tail.1 (by rw [ht, hr.2])
    refine ⟨head.1 :: first, c, rest, ?_, hrest, by rw [hr.1, htail, List.cons_append]⟩
    simp only [fill, hp, hfirst]

theorem whole_of_fill_ok (b : Binder) (t : Template) (r : List String × Binder)
    (h : fill b t = .ok r) : t.Whole := by
  induction t generalizing b r with
  | nil => exact whole_nil
  | cons p t ih =>
    obtain ⟨first, rest, hp, ht, _⟩ := fill_cons_ok b p t r h
    intro cause hmem
    rcases List.mem_cons.mp hmem with he | hmem
    · rw [← he] at hp
      simp [fillPiece] at hp
    · exact ih first.2 rest ht cause hmem

theorem fill_ok (b b' : Binder) (t : Template) (texts : List String)
    (h : fill b t = .ok (texts, b')) :
    t.Whole ∧ ∃ names, b.nameSites t.sites = .ok (names, b') ∧ texts = t.written names := by
  have ht := whole_of_fill_ok b t (texts, b') h
  rw [fill_of_whole b t ht] at h
  cases hn : b.nameSites t.sites with
  | error cause => simp [hn, Except.map] at h
  | ok r =>
    simp only [hn, Except.map, Except.ok.injEq, Prod.mk.injEq] at h
    exact ⟨ht, r.1, by rw [← h.2], h.1.symm⟩

end Template

end BoundSql
