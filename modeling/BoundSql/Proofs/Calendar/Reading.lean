import Mathlib.Algebra.Ring.Nat
import Mathlib.Data.List.TakeWhile
import BoundSql.Calendar.Moment
import BoundSql.Proofs.Numeric.Digits

/-!
# Reading days and moments

Every day and every moment is read back from its text, and the text of a moment is not that of a
day.
-/

namespace BoundSql

/-! ### Numbers of a fixed width -/

theorem isBlank_of_isDigit (c : Char) (h : c.isDigit = true) : isBlank c = false := by
  simp only [Char.isDigit, Bool.and_eq_true, decide_eq_true_eq, ge_iff_le, UInt32.le_iff_toNat_le]
    at h
  have hlow : 48 ≤ c.toNat := h.1
  have hhigh : c.toNat ≤ 57 := h.2
  simp [isBlank]
  omega

theorem trimStart_cons (c : Char) (cs : List Char) (h : isBlank c = false) :
    trimStart (c :: cs) = c :: cs := by
  simp [trimStart, h]

namespace Date

theorem isDigit_of_mem_padded (width n : Nat) : ∀ c ∈ padded width n, c.isDigit = true := by
  intro c hc
  rcases List.mem_append.mp hc with hzero | hdigit
  · rw [List.eq_of_mem_replicate hzero]
    rfl
  · exact isDigit_of_mem_toDigits n c hdigit

theorem digitsValue_padded (width n : Nat) : digitsValue (padded width n) = n := by
  rw [digitsValue_eq, padded, Nat.ofDigitChars_append, Nat.ofDigitChars_replicate_zero,
    Nat.mul_zero, Nat.ofDigitChars_ten_toDigits]

theorem padded_ne_nil (width n : Nat) : padded width n ≠ [] :=
  List.append_ne_nil_of_right_ne_nil _ Nat.toDigits_ne_nil

theorem length_padded (width n : Nat) (hw : 0 < width) (hn : n < 10 ^ width) :
    (padded width n).length = width := by
  have hle : (Nat.toDigits 10 n).length ≤ width :=
    (Nat.length_toDigits_le_iff (by decide) hw).mpr hn
  rw [padded, List.length_append, List.length_replicate]
  omega

theorem trimStart_padded (width n : Nat) (rest : List Char) :
    trimStart (padded width n ++ rest) = padded width n ++ rest := by
  obtain ⟨c, cs, hcs⟩ := List.exists_cons_of_ne_nil (padded_ne_nil width n)
  have hc : c.isDigit = true := isDigit_of_mem_padded width n c (by rw [hcs]; simp)
  rw [hcs]
  exact trimStart_cons c _ (isBlank_of_isDigit c hc)

/-- A number is read from as many digits as it is padded to, whatever follows. -/
theorem takeNumber_padded (width n : Nat) (rest : List Char) (hw : 0 < width)
    (hn : n < 10 ^ width) : takeNumber width (padded width n ++ rest) = some (n, rest) := by
  have hlen := length_padded width n hw hn
  have htake : (padded width n ++ rest).take width = padded width n :=
    List.take_left' hlen
  have hdrop : (padded width n ++ rest).drop width = rest := List.drop_left' hlen
  have hdigits : (padded width n).takeWhile Char.isDigit = padded width n :=
    List.takeWhile_eq_self_iff.mpr (isDigit_of_mem_padded width n)
  simp only [takeNumber, trimStart_padded, htake, hdigits, List.isEmpty_iff, padded_ne_nil,
    ite_false, digitsValue_padded, hlen, hdrop]

theorem takeMark_cons (mark : Char) (cs : List Char) (h : isBlank mark = false) :
    takeMark mark (mark :: cs) = some cs := by
  rw [takeMark, trimStart_cons mark cs h]
  exact if_pos rfl

theorem takeSignedYear_padded (n : Nat) (rest : List Char) :
    takeSignedYear (padded 4 n ++ '-' :: rest) = some (n, '-' :: rest) := by
  have hstops : StopsDigits ('-' :: rest) := by
    intro c hc
    rw [← Option.some.inj hc]
    rfl
  simp only [takeSignedYear, takeDigits_of_stops _ _ (isDigit_of_mem_padded 4 n) hstops,
    List.isEmpty_iff, padded_ne_nil, ite_false, digitsValue_padded]

theorem takeYear_yearText (year : Int) (rest : List Char) :
    takeYear (yearText year ++ '-' :: rest) = some (year, '-' :: rest) := by
  unfold yearText
  split
  · next hneg =>
    have hyear : -(year.natAbs : Int) = year := by omega
    rw [List.cons_append, takeYear, trimStart_cons '-' _ (by decide)]
    simp only [takeSignedYear_padded, Option.map_some, hyear]
  · split
    · next hbig =>
      have hyear : (year.natAbs : Int) = year := by omega
      rw [List.cons_append, takeYear, trimStart_cons '+' _ (by decide)]
      simp only [takeSignedYear_padded, Option.map_some, hyear]
    · next hneg hbig =>
      have hyear : (year.natAbs : Int) = year := by omega
      have hread := takeNumber_padded 4 year.natAbs ('-' :: rest) (by decide) (by omega)
      rw [takeYear, trimStart_padded]
      -- What starts with a digit starts with no sign.
      have hsign (c : Char) (cs : List Char) (hc : c.isDigit = false) :
          padded 4 year.natAbs ++ '-' :: rest ≠ c :: cs := by
        obtain ⟨d, ds, hds⟩ := List.exists_cons_of_ne_nil (padded_ne_nil 4 year.natAbs)
        have hd : d.isDigit = true := isDigit_of_mem_padded 4 year.natAbs d (by rw [hds]; simp)
        rw [hds]
        intro heq
        rw [(List.cons.inj heq).1, hc] at hd
        cases hd
      split
      · next heq => exact absurd heq (hsign '-' _ rfl)
      · next heq => exact absurd heq (hsign '+' _ rfl)
      · simp only [hread, Option.map_some, hyear]

/-! ### Days -/

theorem isCalendarDay_bounds (year : Int) (month day : Nat)
    (h : isCalendarDay year month day = true) : month < 10 ^ 2 ∧ day < 10 ^ 2 := by
  simp only [isCalendarDay, decide_eq_true_eq] at h
  obtain ⟨_, _, hday, hlast⟩ := h
  unfold daysInMonth at hlast
  split at hlast
  · split at hlast <;> omega
  · split at hlast
    · omega
    · split at hlast <;> omega

/-- A day is read from its text, whatever follows. -/
theorem take?_toText (d : Date) (rest : List Char) : take? (d.toText ++ rest) = some (d, rest) := by
  obtain ⟨hmonth, hday⟩ := isCalendarDay_bounds d.year d.month d.day d.isDay
  have htext : d.toText ++ rest
      = yearText d.year ++ '-' :: (padded 2 d.month ++ '-' :: (padded 2 d.day ++ rest)) := by
    simp only [toText, List.append_assoc, List.cons_append]
  have hparts : ofParts? d.year d.month d.day = some d := dif_pos d.isDay
  rw [take?, htext, takeYear_yearText]
  simp only [Option.bind_eq_bind, Option.bind_some, takeMark_cons '-' _ (by decide),
    takeNumber_padded 2 _ _ (by decide) hmonth, takeNumber_padded 2 _ _ (by decide) hday, hparts]
  rfl

theorem read?_toText (d : Date) : read? d.toText = some d := by
  have htake := take?_toText d []
  rw [List.append_nil] at htake
  rw [read?, htake]
  rfl

end Date

namespace Moment

theorem takeNanosecond_fractionText (n : Nat) (hn : n < 1000000000) :
    takeNanosecond (fractionText n) = some (n, []) := by
  have hpoint (width k : Nat) (hw : 0 < width) (hw' : width ≤ 9) (hk : k < 10 ^ width) :
      takeNanosecond ('.' :: Date.padded width k) = some (k * Nat.pow 10 (9 - width), []) := by
    have hdigits := takeDigits_of_stops (Date.padded width k) []
      (Date.isDigit_of_mem_padded width k) (fun _ h => nomatch h)
    rw [List.append_nil] at hdigits
    have hlen := Date.length_padded width k hw hk
    have htake : (Date.padded width k).take 9 = Date.padded width k :=
      List.take_of_length_le (by omega)
    simp only [takeNanosecond, hdigits, htake, List.isEmpty_iff, Date.padded_ne_nil, ite_false,
      Date.digitsValue_padded, hlen]
  unfold fractionText
  split
  · next hzero => rw [hzero]; rfl
  · split
    · next hmilli =>
      have hexact : n / 1000000 * Nat.pow 10 (9 - 3) = n :=
        Nat.div_mul_cancel (Nat.dvd_of_mod_eq_zero hmilli)
      rw [hpoint 3 _ (by decide) (by decide) (by omega), hexact]
    · split
      · next hmicro =>
        have hexact : n / 1000 * Nat.pow 10 (9 - 6) = n :=
          Nat.div_mul_cancel (Nat.dvd_of_mod_eq_zero hmicro)
        rw [hpoint 6 _ (by decide) (by decide) (by omega), hexact]
      · have hexact : n * Nat.pow 10 (9 - 9) = n := Nat.mul_one n
        rw [hpoint 9 n (by decide) (by decide) (by omega), hexact]

/-- A moment is read from its text. -/
theorem read?_toText (m : Moment) : read? m.toText = some m := by
  have htext : m.toText = m.date.toText ++ 'T' :: (Date.padded 2 m.hour.val ++ ':'
      :: (Date.padded 2 m.minute.val ++ ':' :: (Date.padded 2 m.second.val
        ++ fractionText m.nanosecond.val))) := by
    simp only [toText, clockText, List.append_assoc, List.cons_append]
  have hbelow (bound : Nat) (i : Fin bound) : below bound i.val = some i := dif_pos i.isLt
  have hnumber (bound : Nat) (i : Fin bound) (rest : List Char) (hbound : bound ≤ 10 ^ 2) :
      Date.takeNumber 2 (Date.padded 2 i.val ++ rest) = some (i.val, rest) :=
    Date.takeNumber_padded 2 i.val rest (by decide) (Nat.lt_of_lt_of_le i.isLt hbound)
  rw [read?, htext, Date.take?_toText]
  simp only [Option.bind_eq_bind, Option.bind_some, Date.takeMark_cons 'T' _ (by decide),
    Date.takeMark_cons ':' _ (by decide), hnumber 24 _ _ (by decide), hnumber 60 _ _ (by decide),
    hnumber 61 _ _ (by decide), takeNanosecond_fractionText _ m.nanosecond.isLt, hbelow]
  rfl

/-- No day has the text of a moment. -/
theorem date_read?_toText (m : Moment) : Date.read? m.toText = none := by
  have htake := Date.take?_toText m.date
    ('T' :: (m.clockText ++ fractionText m.nanosecond.val))
  rw [Date.read?, toText, List.append_assoc, List.cons_append, htake]
  rfl

end Moment

end BoundSql
