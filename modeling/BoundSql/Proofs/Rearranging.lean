import BoundSql.Proofs.Parameter.Numbering
import BoundSql.Proofs.Running

/-!
# Rearranging the uses of keys

Two binders are alike if they have taken the same names and count the same uses; whatever is
filled after that, both hand out the same names. Uses of keys that change places leave binders
that are alike, though a key has got its numbers for other values.
-/

namespace BoundSql

namespace Binder

structure Alike (b b' : Binder) : Prop where
  taken : ∀ name, name ∈ b.taken ↔ name ∈ b'.taken
  counter : ∀ key, b.counter key = b'.counter key

namespace Alike

variable {b b' c : Binder}

theorem refl (b : Binder) : b.Alike b := ⟨fun _ => Iff.rfl, fun _ => rfl⟩

theorem trans (h : b.Alike b') (h' : b'.Alike c) : b.Alike c :=
  ⟨fun name => (h.taken name).trans (h'.taken name),
    fun key => (h.counter key).trans (h'.counter key)⟩

end Alike

/-- The next number is determined by the counter of the key and by which of its names are taken. -/
theorem nextNumber_eq_of_same (b b' : Binder) (key : String)
    (htaken : ∀ n, numbered key n ∈ b.taken ↔ numbered key n ∈ b'.taken)
    (hcounter : b.counter key = b'.counter key) : b.nextNumber key = b'.nextNumber key := by
  obtain ⟨hlt, hbelow, hfree⟩ := nextNumber_spec b key
  obtain ⟨hlt', hbelow', hfree'⟩ := nextNumber_spec b' key
  -- The smaller of two different numbers would be taken on one side and free on the other.
  rcases Nat.lt_trichotomy (b.nextNumber key) (b'.nextNumber key) with hless | heq | hmore
  · have hmem := hbelow' (b.nextNumber key) (by omega) hless
    exact absurd ((htaken _).mpr hmem) hfree
  · exact heq
  · have hmem := hbelow (b'.nextNumber key) (by omega) hmore
    exact absurd ((htaken _).mp hmem) hfree'

theorem mem_taken_bind (b : Binder) (key name : String) (v : Scalar) :
    name ∈ (b.bind key v).2.taken ↔ name = numbered key (b.nextNumber key) ∨ name ∈ b.taken :=
  List.mem_cons

theorem counter_bind (b : Binder) (key key' : String) (v : Scalar) :
    (b.bind key v).2.counter key' = if key = key' then b.nextNumber key else b.counter key' :=
  counter_setCounter b _ _ key key' _

/-- The value of a use does not matter to the names that come later. -/
theorem Alike.bind {b b' : Binder} (h : b.Alike b') (key : String) (v v' : Scalar) :
    (b.bind key v).2.Alike (b'.bind key v').2 := by
  have hnumber : b.nextNumber key = b'.nextNumber key :=
    nextNumber_eq_of_same b b' key (fun n => h.taken _) (h.counter key)
  constructor
  · intro name
    rw [mem_taken_bind, mem_taken_bind, hnumber, h.taken name]
  · intro key'
    rw [counter_bind, counter_bind, hnumber, h.counter key']

/-- If the first run succeeds, so does the second one, and both leave binders that are alike. -/
def Follows (r r' : Except Error Binder) : Prop :=
  ∀ c, r = .ok c → ∃ c', r' = .ok c' ∧ c.Alike c'

theorem Alike.reserve {b b' : Binder} (h : b.Alike b') (name : String) :
    Follows (b.reserve name) (b'.reserve name) := by
  intro c hc
  unfold Binder.reserve at hc ⊢
  by_cases hmem : name ∈ b.taken
  · rw [if_pos hmem] at hc
    cases hc
  · rw [if_neg hmem, Except.ok.injEq] at hc
    have hmem' : name ∉ b'.taken := fun hin => hmem ((h.taken name).mpr hin)
    rw [if_neg hmem']
    refine ⟨_, rfl, ?_, ?_⟩
    · intro other
      rw [← hc, List.mem_cons, List.mem_cons, h.taken other]
    · intro key
      rw [← hc]
      exact h.counter key

theorem Alike.record {b b' : Binder} (h : b.Alike b') (name : String) (v : Scalar) :
    Follows (b.record name v) (b'.record name v) := by
  intro c hc
  unfold Binder.record at hc ⊢
  cases hreserve : b.reserve name with
  | error e =>
    rw [hreserve] at hc
    cases hc
  | ok d =>
    obtain ⟨d', hd', halike⟩ := h.reserve name d hreserve
    rw [hreserve] at hc
    cases hc
    rw [hd']
    exact ⟨_, rfl, halike.taken, halike.counter⟩

theorem nextNumber_bind_of_ne (b : Binder) (key key' : String) (v : Scalar) (hne : key ≠ key') :
    (b.bind key v).2.nextNumber key' = b.nextNumber key' := by
  apply nextNumber_eq_of_same
  · intro n
    have hother : numbered key' n ≠ numbered key (b.nextNumber key) := by
      intro he
      exact hne (numbered_inj _ _ _ _ he).1.symm
    rw [mem_taken_bind]
    exact or_iff_right hother
  · rw [counter_bind, if_neg hne]

theorem alike_bind_swap (b : Binder) (key key' : String) (v v' : Scalar) :
    ((b.bind key v).2.bind key' v').2.Alike ((b.bind key' v').2.bind key v).2 := by
  by_cases hkey : key = key'
  · subst hkey
    exact ((Alike.refl b).bind key v v').bind key v' v
  · have hnumber := nextNumber_bind_of_ne b key key' v hkey
    have hnumber' := nextNumber_bind_of_ne b key' key v' (Ne.symm hkey)
    constructor
    · intro name
      rw [mem_taken_bind, mem_taken_bind, mem_taken_bind, mem_taken_bind, hnumber, hnumber']
      exact or_left_comm
    · intro other
      rw [counter_bind, counter_bind, counter_bind, counter_bind, hnumber, hnumber']
      split
      · next he =>
        have hne : key ≠ other := fun he' => hkey (he'.trans he.symm)
        rw [if_neg hne]
      · rfl

theorem Follows.trans {r r' r'' : Except Error Binder} (h : Follows r r') (h' : Follows r' r'') :
    Follows r r'' := by
  intro c hc
  obtain ⟨c', hc', halike⟩ := h c hc
  obtain ⟨c'', hc'', halike'⟩ := h' c' hc'
  exact ⟨c'', hc'', halike.trans halike'⟩

theorem Follows.bind {r r' : Except Error Binder} {f f' : Binder → Except Error Binder}
    (h : Follows r r') (hf : ∀ c c', c.Alike c' → Follows (f c) (f' c')) :
    Follows (r.bind f) (r'.bind f') := by
  intro d hd
  cases hr : r with
  | error e =>
    rw [hr] at hd
    cases hd
  | ok c =>
    obtain ⟨c', hc', halike⟩ := h c hr
    rw [hr] at hd
    obtain ⟨d', hd', hend⟩ := hf c c' halike d hd
    exact ⟨d', by rw [hc']; exact hd', hend⟩

end Binder

namespace Template

open Binder

theorem fillPiece_alike (b b' : Binder) (p : Piece) (h : b.Alike b') :
    Follows ((fillPiece b p).map (·.2)) ((fillPiece b' p).map (·.2)) := by
  cases p with
  | text s =>
    intro c hc
    cases hc
    exact ⟨b', rfl, h⟩
  | bind key v =>
    intro c hc
    cases hc
    exact ⟨_, rfl, h.bind key v v⟩
  | refuse cause =>
    intro c hc
    cases hc
  | record name v =>
    have hrecord : ∀ b : Binder,
        (fillPiece b (.record name v)).map (·.2) = b.record name v := by
      intro b
      rw [fillPiece]
      cases b.record name v <;> rfl
    rw [hrecord, hrecord]
    exact h.record name v
  | reserve name =>
    have hreserve : ∀ b : Binder,
        (fillPiece b (.reserve name)).map (·.2) = b.reserve name := by
      intro b
      rw [fillPiece]
      cases b.reserve name <;> rfl
    rw [hreserve, hreserve]
    exact h.reserve name

theorem run_cons_map (b : Binder) (p : Piece) (t : Template) :
    run b (p :: t) = ((fillPiece b p).map (·.2)).bind fun b => run b t := by
  rw [run_cons]
  cases fillPiece b p <;> rfl

theorem run_alike (b b' : Binder) (t : Template) (h : b.Alike b') :
    Follows (run b t) (run b' t) := by
  induction t generalizing b b' with
  | nil =>
    intro c hc
    cases hc
    exact ⟨b', rfl, h⟩
  | cons p t ih =>
    rw [run_cons_map, run_cons_map]
    exact (fillPiece_alike b b' p h).bind fun c c' hc => ih c c' hc

theorem fillPiece_swap (b : Binder) (p p' : Piece) (hp : p.claim? = none)
    (hp' : p'.claim? = none) : Follows (run b [p, p']) (run b [p', p]) := by
  intro c hc
  cases p with
  | text s =>
    rw [run_text_cons] at hc
    refine ⟨c, ?_, .refl c⟩
    rw [run_cons] at hc ⊢
    exact hc
  | refuse cause => cases hc
  | record name v => cases hp
  | reserve name => cases hp
  | bind key v =>
    cases p' with
    | text s => exact ⟨c, hc, .refl c⟩
    | refuse cause => cases hc
    | record name v => cases hp'
    | reserve name => cases hp'
    | bind key' v' =>
      cases hc
      exact ⟨_, rfl, b.alike_bind_swap key key' v v'⟩

/-- Pieces that claim no name may be rearranged. -/
theorem run_perm (b : Binder) (t u : Template) (h : t.Perm u) (ht : ∀ p ∈ t, p.claim? = none) :
    Follows (run b t) (run b u) := by
  induction h generalizing b with
  | nil => exact run_alike b b [] (.refl b)
  | cons p _ ih =>
    rw [run_cons_map, run_cons_map]
    refine (fillPiece_alike b b p (.refl b)).bind fun c c' hc => ?_
    have htail := ih c fun q hq => ht q (List.mem_cons_of_mem _ hq)
    exact htail.trans (run_alike c c' _ hc)
  | swap p p' t =>
    have hp : p.claim? = none := ht p (List.mem_cons_of_mem _ (List.mem_cons_self ..))
    have hp' : p'.claim? = none := ht p' (List.mem_cons_self ..)
    have hsplit : ∀ q q' : Piece, run b (q :: q' :: t) = (run b [q, q']).bind fun b => run b t :=
      fun q q' => run_append b [q, q'] t
    rw [hsplit, hsplit]
    -- The two orders leave different binders, but alike ones, so that the rest follows.
    exact (fillPiece_swap b p' p hp' hp).bind fun c c' hc => run_alike c c' t hc
  | trans h _ ih ih' => exact (ih b ht).trans (ih' b fun p hp => ht p (h.mem_iff.mpr hp))

end Template

end BoundSql
