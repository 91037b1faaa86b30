import Mathlib.Data.List.Basic
import BoundSql.Numeric.Reading
import BoundSql.Proofs.Text.Pieces

/-!
# Digits

Reading back what `Nat.toDigits` writes: the digits in front of a text that goes on with something
else, their value, and the digit they start with.
-/

namespace BoundSql

/-- The text does not start with a digit. -/
def StopsDigits (cs : List Char) : Prop := ∀ c ∈ cs.head?, c.isDigit = false

theorem takeDigits_of_stops (ds rest : List Char) (hds : ∀ c ∈ ds, c.isDigit = true)
    (hrest : StopsDigits rest) : takeDigits (ds ++ rest) = (ds, rest) := by
  rw [takeDigits, takeWhile_of_stops Char.isDigit ds rest hds hrest,
    dropWhile_of_stops Char.isDigit ds rest hds hrest]

theorem takeDigits_append_stops (cs rest : List Char) (hrest : StopsDigits rest) :
    takeDigits (cs ++ rest) = ((takeDigits cs).1, (takeDigits cs).2 ++ rest) := by
  induction cs with
  | nil => exact takeDigits_of_stops [] rest (fun _ h => nomatch h) hrest
  | cons c cs ih =>
    simp only [takeDigits, Prod.mk.injEq] at ih ⊢
    by_cases hc : c.isDigit = true <;> simp [hc, ih]

theorem isDigit_of_mem_toDigits (n : Nat) : ∀ c ∈ Nat.toDigits 10 n, c.isDigit = true :=
  fun _ hc => Nat.isDigit_of_mem_toDigits (by decide) (by decide) hc

theorem digitsValue_eq (ds : List Char) : digitsValue ds = Nat.ofDigitChars 10 ds 0 := by
  rw [Nat.ofDigitChars_eq_foldl]
  rfl

theorem digitChar_ne_zero : ∀ d < 10, 0 < d → Nat.digitChar d ≠ '0' := by decide

/-- A number above zero starts with a digit above zero. -/
theorem head_toDigits_ne_zero (n : Nat) (hn : 0 < n) :
    ∀ c ∈ (Nat.toDigits 10 n).head?, c ≠ '0' := by
  induction n using Nat.strongRecOn with
  | ind n ih =>
    rw [Nat.toDigits_eq_if (by decide)]
    split
    · next hlt =>
      intro c hc
      rw [← Option.some.inj hc]
      exact digitChar_ne_zero n hlt hn
    · next hge =>
      rw [List.head?_append_of_ne_nil _ Nat.toDigits_ne_nil]
      exact ih (n / 10) (by omega) (by omega)

end BoundSql
