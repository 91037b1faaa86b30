import BoundSql.Proofs.Filling

/-!
# Running templates

What a template does to a binder, and where it fails, depends on its acts alone: the pieces that
are not text. A use of a key never fails, so that without claims of given names a template fails
at its first refusal; claims of different names that are not taken do not fail either.
-/

namespace BoundSql

namespace Piece

def isText : Piece → Bool
  | text _ => true
  | _ => false

def refusal? : Piece → Option Error
  | refuse cause => some cause
  | _ => none

/-- The name that a piece claims as it is. -/
def claim? : Piece → Option String
  | record name _ => some name
  | reserve name => some name
  | _ => none

end Piece

namespace Template

/-- The pieces that are not text. -/
def acts (t : Template) : Template := t.filter fun p => !p.isText

@[simp] theorem acts_nil : acts [] = [] := rfl

@[simp] theorem acts_text_cons (s : String) (t : Template) : acts (.text s :: t) = acts t := rfl

@[simp] theorem acts_append (t u : Template) : acts (t ++ u) = acts t ++ acts u :=
  List.filter_append ..

@[simp] theorem acts_parenthesized (t : Template) : acts (parenthesized t) = acts t := by
  simp only [parenthesized, acts_append, acts_text_cons, List.cons_append, acts_nil,
    List.append_nil]

theorem acts_join (separator : String) (ts : List Template) :
    acts (join separator ts) = ts.flatMap acts := by
  induction ts with
  | nil => rfl
  | cons t ts ih =>
    cases ts with
    | nil => simp only [join, List.flatMap_cons, List.flatMap_nil, List.append_nil]
    | cons u us => simp only [join, acts_append, acts_text_cons, ih, List.flatMap_cons]

theorem exists_texts_of_acts (t : Template) (h : acts t = []) :
    ∃ ss : List String, t = ss.map .text := by
  induction t with
  | nil => exact ⟨[], rfl⟩
  | cons p t ih =>
    cases p with
    | text s =>
      obtain ⟨ss, hss⟩ := ih h
      exact ⟨s :: ss, by rw [hss, List.map_cons]⟩
    | _ => cases h

/-! ### Runs -/

/-- The binder after a template is filled. -/
def run (b : Binder) (t : Template) : Except Error Binder := (fill b t).map (·.2)

theorem run_nil (b : Binder) : run b [] = .ok b := rfl

theorem run_cons (b : Binder) (p : Piece) (t : Template) :
    run b (p :: t) = (fillPiece b p).bind fun r => run r.2 t := by
  rw [run, fill]
  cases fillPiece b p with
  | error cause => rfl
  | ok r =>
    simp only [Except.bind, run]
    cases fill r.2 t <;> rfl

theorem run_text_cons (b : Binder) (s : String) (t : Template) :
    run b (.text s :: t) = run b t := by
  rw [run_cons]
  rfl

theorem run_append (b : Binder) (t u : Template) :
    run b (t ++ u) = (run b t).bind fun b => run b u := by
  induction t generalizing b with
  | nil => rfl
  | cons p t ih =>
    rw [List.cons_append, run_cons, run_cons]
    cases fillPiece b p with
    | error cause => rfl
    | ok r => exact ih r.2

theorem run_acts (b : Binder) (t : Template) : run b t.acts = run b t := by
  induction t generalizing b with
  | nil => rfl
  | cons p t ih =>
    by_cases hp : p.isText = true
    · cases p with
      | text s => rw [acts_text_cons, run_text_cons, ih]
      | _ => cases hp
    · have hkept : acts (p :: t) = p :: acts t := by simp [acts, hp]
      rw [hkept, run_cons, run_cons]
      simp only [ih]

theorem refuse_not_mem_of_run_ok (b c : Binder) (t : Template) (cause : Error)
    (h : run b t = .ok c) : .refuse cause ∉ t := by
  rw [run] at h
  cases hfill : fill b t with
  | error e =>
    rw [hfill] at h
    cases h
  | ok r => exact whole_of_fill_ok b t r hfill cause

/-- What is not a name claimed twice is refused by the template itself. -/
theorem refuse_mem_of_run_error (b : Binder) (t : Template) (cause : Error)
    (h : run b t = .error cause) (hcause : ∀ name, cause ≠ .duplicateParameter name) :
    .refuse cause ∈ t := by
  induction t generalizing b with
  | nil => cases h
  | cons p t ih =>
    rw [run_cons] at h
    cases hp : fillPiece b p with
    | ok r =>
      rw [hp] at h
      exact List.mem_cons_of_mem _ (ih r.2 h)
    | error e =>
      rw [hp] at h
      obtain rfl := Except.error.inj h
      cases p with
      | refuse cause =>
        obtain rfl := Except.error.inj hp
        exact List.mem_cons_self ..
      | text s => cases hp
      | bind key v => cases hp
      | record name v =>
        by_cases hmem : name ∈ b.taken
        · rw [fillPiece, Binder.record, Binder.reserve, if_pos hmem] at hp
          exact absurd (Except.error.inj hp).symm (hcause name)
        · rw [fillPiece, Binder.record, Binder.reserve, if_neg hmem] at hp
          cases hp
      | reserve name =>
        by_cases hmem : name ∈ b.taken
        · rw [fillPiece, Binder.reserve, if_pos hmem] at hp
          exact absurd (Except.error.inj hp).symm (hcause name)
        · rw [fillPiece, Binder.reserve, if_neg hmem] at hp
          cases hp

theorem run_eq_error_of_uses (b : Binder) (t : Template) (cause : Error)
    (h : ∀ p ∈ t, p.claim? = none) :
    run b t = .error cause ↔ t.findSome? Piece.refusal? = some cause := by
  induction t generalizing b with
  | nil => simp [run_nil]
  | cons p t ih =>
    obtain ⟨hp, ht⟩ := List.forall_mem_cons.mp h
    rw [run_cons]
    cases p with
    | text s => exact ih b ht
    | bind key v => exact ih _ ht
    | refuse cause' =>
      have hfirst : List.findSome? Piece.refusal? (.refuse cause' :: t) = some cause' := rfl
      rw [hfirst]
      simp [fillPiece, Except.bind]
    | record name v => cases hp
    | reserve name => cases hp

theorem run_claims (b : Binder) (t : Template) (names : List String)
    (ht : t.map Piece.claim? = names.map some) (hnodup : names.Nodup)
    (hfree : ∀ name ∈ names, name ∉ b.taken) : ∃ b', run b t = .ok b' := by
  induction t generalizing b names with
  | nil => exact ⟨b, rfl⟩
  | cons p t ih =>
    cases names with
    | nil => cases ht
    | cons name names =>
      simp only [List.map_cons, List.cons.injEq] at ht
      obtain ⟨hname, hnames⟩ := List.nodup_cons.mp hnodup
      have hnew : name ∉ b.taken := hfree name (List.mem_cons_self ..)
      -- Whatever the kind of claim, the names that come later stay free.
      have hrest : ∀ b' : Binder, b'.taken = name :: b.taken →
          ∀ other ∈ names, other ∉ b'.taken := by
        intro b' htaken other hother
        rw [htaken, List.mem_cons, not_or]
        exact ⟨fun he => hname (he ▸ hother), hfree other (List.mem_cons_of_mem _ hother)⟩
      rw [run_cons]
      cases p with
      | record column v =>
        obtain rfl := Option.some.inj ht.1
        simp only [fillPiece, Binder.record, Binder.reserve, hnew, ite_false, Except.map,
          Except.bind]
        exact ih _ names ht.2 hnames (hrest _ rfl)
      | reserve column =>
        obtain rfl := Option.some.inj ht.1
        simp only [fillPiece, Binder.reserve, hnew, ite_false, Except.map, Except.bind]
        exact ih _ names ht.2 hnames (hrest _ rfl)
      | _ => cases ht.1

end Template

end BoundSql
