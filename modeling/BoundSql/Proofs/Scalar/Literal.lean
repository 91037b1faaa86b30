import BoundSql.Json.Basic
import BoundSql.Proofs.Numeric.Digits
import BoundSql.Proofs.Numeric.Rounding
import BoundSql.Scalar.Literal

/-!
# Literals in documents

Which literals are `null` in a JSON document. One is the word itself. The others are those that
read as a number without a finite value: the words for infinity and for no number, in any case and
with a sign, and decimals that are too large.
-/

namespace BoundSql

/-- The word `null`, in any case and with white space around it. -/
def NullText (raw : String) : Prop := (trimBlank raw.toList).map Char.toLower = "null".toList

namespace Binary64

/-! ### Numbers without a finite value -/

/-- The words for numbers without a finite value. -/
def unboundedWords : List (List Char) := ["inf".toList, "infinity".toList, "nan".toList]

/-- The digits of a decimal and its exponent, if the text is one without a sign. -/
def decimal? (body : List Char) : Option (Nat × Int) :=
  let (whole, rest) := takeDigits body
  let (fraction, rest) := takeFraction rest
  if whole.isEmpty ∧ fraction.isEmpty then none
  else (readExponent rest).map fun e => (digitsValue (whole ++ fraction), e - fraction.length)

/-- The text is a word for a number without a finite value, or a decimal from the bound on. -/
def Unbounded (cs : List Char) : Prop :=
  let body := (takeSign cs).2
  body.map Char.toLower ∈ unboundedWords ∨
    ∃ digits exponent, decimal? body = some (digits, exponent) ∧
      overflow * 10 ^ (-exponent).toNat ≤ digits * 10 ^ exponent.toNat

theorem isFinite_nan (negative : Bool) :
    (if negative then nan.neg else nan).isFinite = false := by cases negative <;> decide

theorem read?_of_word (cs : List Char) (h : (takeSign cs).2.map Char.toLower ∈ unboundedWords) :
    ∃ x, read? cs = some x ∧ x.isFinite = false := by
  simp only [unboundedWords, List.mem_cons, List.not_mem_nil, or_false] at h
  simp only [read?]
  rcases h with hword | hword | hword <;> rw [hword]
  · exact ⟨_, rfl, isFinite_infinity _⟩
  · exact ⟨_, rfl, isFinite_infinity _⟩
  · exact ⟨_, rfl, isFinite_nan _⟩

theorem read?_of_not_word (cs : List Char)
    (h : (takeSign cs).2.map Char.toLower ∉ unboundedWords) :
    read? cs = (decimal? (takeSign cs).2).map fun d => ofDecimal (takeSign cs).1 d.1 d.2 := by
  simp only [unboundedWords, List.mem_cons, List.not_mem_nil, or_false, not_or] at h
  obtain ⟨hinf, hinfinity, hnan⟩ := h
  simp only [read?, decimal?, hinf, hinfinity, hnan, or_self, if_false]
  split
  · rfl
  · rw [Option.map_map]
    rfl

theorem isFinite_ofDecimal_eq_false (negative : Bool) (digits : Nat) (exponent : Int) :
    (ofDecimal negative digits exponent).isFinite = false ↔
      overflow * 10 ^ (-exponent).toNat ≤ digits * 10 ^ exponent.toNat := by
  rw [← not_lt, ← isFinite_ofDecimal negative, Bool.not_eq_true]

/-- A text that reads as a number reads as one without a finite value exactly if it is unbounded. -/
theorem read?_unbounded_iff (cs : List Char) :
    (∃ x, read? cs = some x ∧ x.isFinite = false) ↔ Unbounded cs := by
  by_cases hword : (takeSign cs).2.map Char.toLower ∈ unboundedWords
  · exact iff_of_true (read?_of_word cs hword) (Or.inl hword)
  · have hunbounded : Unbounded cs ↔ ∃ digits exponent,
        decimal? (takeSign cs).2 = some (digits, exponent) ∧
          overflow * 10 ^ (-exponent).toNat ≤ digits * 10 ^ exponent.toNat :=
      or_iff_right hword
    simp only [hunbounded, read?_of_not_word cs hword, Option.map_eq_some_iff, Prod.exists]
    constructor
    · rintro ⟨_, ⟨digits, exponent, hdecimal, rfl⟩, hx⟩
      exact ⟨digits, exponent, hdecimal, (isFinite_ofDecimal_eq_false _ _ _).mp hx⟩
    · rintro ⟨digits, exponent, hdecimal, hbound⟩
      exact ⟨_, ⟨digits, exponent, hdecimal, rfl⟩, (isFinite_ofDecimal_eq_false _ _ _).mpr hbound⟩

end Binary64

namespace Scalar

open Binary64

/-! ### Integers -/

theorem decimal?_of_digits (digits : List Char) (hsome : digits.isEmpty = false)
    (hall : digits.all Char.isDigit = true) :
    decimal? digits = some (digitsValue digits, 0) := by
  have htake := takeDigits_of_stops digits [] (List.all_eq_true.mp hall) (fun _ h => nomatch h)
  rw [List.append_nil] at htake
  simp only [decimal?, htake, takeFraction, hsome, Bool.false_eq_true, false_and, if_false,
    readExponent, Option.map_some, List.append_nil, List.length_nil]
  rfl

theorem overflow_gt : 2 ^ 63 < overflow := by decide +kernel

theorem toLower_of_isDigit (c : Char) (hc : c.isDigit = true) : c.toLower = c := by
  simp only [Char.isDigit, Bool.and_eq_true, decide_eq_true_eq] at hc
  refine dif_neg ?_
  intro h
  exact absurd (UInt32.le_trans h.1 hc.2) (by decide)

theorem not_word_of_digits (digits : List Char) (hall : digits.all Char.isDigit = true) :
    digits.map Char.toLower ∉ unboundedWords := by
  have hsame : digits.map Char.toLower = digits :=
    (List.map_congr_left fun c hc => toLower_of_isDigit c (List.all_eq_true.mp hall c hc)).trans
      (List.map_id' digits)
  have hwords : ∀ word ∈ unboundedWords, word.all Char.isDigit = false := by decide
  rw [hsame]
  intro hword
  rw [hwords digits hword] at hall
  cases hall

theorem not_unbounded_of_readInt? (cs : List Char) (n : Int64) (h : readInt? cs = some n) :
    ¬ Unbounded cs := by
  simp only [readInt?] at h
  split at h
  · cases h
  · next hdigits =>
    obtain ⟨hsome, hall⟩ := not_or.mp hdigits
    rw [Bool.not_eq_true] at hsome
    rw [Bool.not_eq_true', Bool.not_eq_false] at hall
    have hvalue : digitsValue (takeSign cs).2 ≤ 2 ^ 63 := by
      have hmin : Int64.minValue.toInt = -2 ^ 63 := rfl
      have hmax : Int64.maxValue.toInt = 2 ^ 63 - 1 := rfl
      obtain ⟨hrange, _⟩ := Option.ite_none_right_eq_some.mp h
      rw [hmin, hmax] at hrange
      split at hrange <;> omega
    rintro (hword | ⟨digits, exponent, hdecimal, hbound⟩)
    · exact not_word_of_digits _ hall hword
    · rw [decimal?_of_digits _ hsome hall] at hdecimal
      obtain ⟨rfl, rfl⟩ := Prod.mk.inj (Option.some.inj hdecimal)
      have hgt := overflow_gt
      simp only [Int.neg_zero, Int.toNat_zero, pow_zero, Nat.mul_one] at hbound
      omega

/-! ### Literals -/

theorem ofScalar_ofTrimmed_eq_null (cs : List Char) :
    Json.ofScalar (ofTrimmed cs) = .null ↔ cs.map Char.toLower = "null".toList ∨ Unbounded cs := by
  rw [ofTrimmed]
  split
  · next hnull => exact iff_of_true rfl (Or.inl hnull)
  · next hnull =>
    rw [or_iff_right hnull]
    split
    · next htrue =>
      refine iff_of_false nofun ?_
      rw [htrue, ← read?_unbounded_iff]
      decide
    · split
      · next hfalse =>
        refine iff_of_false nofun ?_
        rw [hfalse, ← read?_unbounded_iff]
        decide
      · split
        · next n hn => exact iff_of_false nofun (not_unbounded_of_readInt? cs n hn)
        · rw [← read?_unbounded_iff]
          split
          · next x hx =>
            rw [hx, Json.ofScalar]
            cases hfinite : x.isFinite <;> simp [hfinite]
          · next hx => simp [hx, Json.ofScalar]

theorem isNull_ofLiteral (raw : String) : (ofLiteral raw).isNull = true ↔ NullText raw := by
  rw [ofLiteral, ofTrimmed]
  split
  · next hnull => exact iff_of_true rfl hnull
  · next hnull =>
    refine iff_of_false ?_ hnull
    repeat' split
    all_goals nofun

/-- The literals that are `null` in a document. -/
theorem ofScalar_ofLiteral_eq_null (raw : String) :
    Json.ofScalar (ofLiteral raw) = .null ↔
      NullText raw ∨ Unbounded (trimBlank raw.toList) :=
  ofScalar_ofTrimmed_eq_null (trimBlank raw.toList)

end Scalar

end BoundSql
