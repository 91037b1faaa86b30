import BoundSql.Json.Printer
import BoundSql.Json.Reader

/-!
# Strings in JSON texts

Every character is read back from the form in which it stands in a string literal, and so is every
string.
-/

namespace BoundSql.Json

theorem hexUnit_hexDigits : ∀ n < 32,
    hexUnit? '0' '0' (hexDigit (n / 16)) (hexDigit (n % 16)) = some n := by
  decide

theorem eq_ofNat (c : Char) (n : Nat) (h : c.toNat = n) : c = Char.ofNat n := by
  rw [← h, Char.ofNat_toNat]

/-- A character below 32 without an escape of its own stands as its two hexadecimal digits. -/
theorem readString_unicode (n : Nat) (cs : List Char) (h : n < 32) :
    readString ('\\' :: 'u' :: '0' :: '0' :: hexDigit (n / 16) :: hexDigit (n % 16) :: cs)
      = (readString cs).map fun r => (Char.ofNat n :: r.1, r.2) := by
  have hlow : ¬ (0xDC00 ≤ n ∧ n ≤ 0xDFFF) := by omega
  have hhigh : ¬ (0xD800 ≤ n ∧ n ≤ 0xDBFF) := by omega
  simp only [readString, hexUnit_hexDigits n h, hlow, hhigh, ite_false]

theorem readString_plain (c : Char) (cs : List Char) (hquote : c ≠ '"') (hslash : c ≠ '\\')
    (hcontrol : ¬ c.toNat < 32) :
    readString (c :: cs) = (readString cs).map fun r => (c :: r.1, r.2) := by
  rw [readString.eq_def]
  split
  · next heq => cases heq
  · next heq => exact absurd (List.cons.inj heq).1 hquote
  · next heq => exact absurd (List.cons.inj heq).1 hslash
  · next heq => exact absurd (List.cons.inj heq).1 hslash
  · next heq =>
    obtain ⟨rfl, rfl⟩ := List.cons.inj heq
    simp only [hcontrol, hslash, or_self, ite_false]

theorem readString_escapeChar (c : Char) (cs : List Char) :
    readString (escapeChar c ++ cs) = (readString cs).map fun r => (c :: r.1, r.2) := by
  unfold escapeChar
  split
  · next h => rw [h]; rfl
  split
  · next h => rw [h]; rfl
  split
  · next h => rw [eq_ofNat c 8 h]; rfl
  split
  · next h => rw [eq_ofNat c 9 h]; rfl
  split
  · next h => rw [eq_ofNat c 10 h]; rfl
  split
  · next h => rw [eq_ofNat c 12 h]; rfl
  split
  · next h => rw [eq_ofNat c 13 h]; rfl
  split
  · next h =>
    have hchar := readString_unicode c.toNat cs h
    rwa [Char.ofNat_toNat] at hchar
  · next hquote hslash _ _ _ _ _ hcontrol => exact readString_plain c cs hquote hslash hcontrol

theorem readString_stringText (s : String) (rest : List Char) :
    readString (s.toList.flatMap escapeChar ++ '"' :: rest) = some (s.toList, rest) := by
  induction s.toList with
  | nil => rfl
  | cons c cs ih =>
    rw [List.flatMap_cons, List.append_assoc, readString_escapeChar, ih]
    rfl

end BoundSql.Json
