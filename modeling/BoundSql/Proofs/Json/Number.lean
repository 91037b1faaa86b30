import BoundSql.Json.Printer
import BoundSql.Json.Reader
import BoundSql.Proofs.Numeric.Digits

/-!
# Numbers in JSON texts

An integer within the bounds of a significand is read back from its digits. A float that is read
back from its text alone is read back from any text that goes on as a document can.
-/

namespace BoundSql.Json

/-- A text that can follow a value inside a document. -/
def Ends (cs : List Char) : Prop :=
  ∀ c ∈ cs.head?, isGap c = true ∨ c = ',' ∨ c = ']' ∨ c = '\x7d'

theorem ends_nil : Ends [] := fun _ h => nomatch h

theorem ends_cons (c : Char) (cs : List Char)
    (h : isGap c = true ∨ c = ',' ∨ c = ']' ∨ c = '\x7d') : Ends (c :: cs) := by
  intro d hd
  rw [← Option.some.inj hd]
  exact h

theorem ends_first (c : Char) (h : isGap c = true ∨ c = ',' ∨ c = ']' ∨ c = '\x7d') :
    c.isDigit = false ∧ c ≠ '.' ∧ c ≠ 'e' ∧ c ≠ 'E' := by
  simp only [isGap, Bool.or_eq_true, beq_iff_eq] at h
  rcases h with (((rfl | rfl) | rfl) | rfl) | rfl | rfl | rfl <;> decide

theorem stops_of_ends (rest : List Char) (h : Ends rest) : StopsDigits rest :=
  fun c hc => (ends_first c (h c hc)).1

theorem startsFloat_of_ends (rest : List Char) (h : Ends rest) : startsFloat rest = false := by
  cases rest with
  | nil => rfl
  | cons c cs =>
    obtain ⟨_, hpoint, he, hE⟩ := ends_first c (h c rfl)
    simp [startsFloat, hpoint, he, hE]

/-! ### Integers -/

theorem le_ofDigitChars (ds : List Char) (n : Nat) : n ≤ Nat.ofDigitChars 10 ds n := by
  rw [Nat.ofDigitChars_eq_ofDigitChars_zero]
  have hpos : 0 < 10 ^ ds.length := Nat.pow_pos (by decide)
  calc n = 1 * n := (Nat.one_mul n).symm
    _ ≤ 10 ^ ds.length * n := Nat.mul_le_mul_right n hpos
    _ ≤ _ := Nat.le_add_right ..

theorem accumulate_of_le (ds : List Char) (n : Nat)
    (h : Nat.ofDigitChars 10 ds n ≤ significandLimit) :
    accumulate n ds = (Nat.ofDigitChars 10 ds n, []) := by
  induction ds generalizing n with
  | nil => rfl
  | cons c cs ih =>
    rw [Nat.ofDigitChars_cons] at h ⊢
    have hnext : ¬ significandLimit < 10 * n + digitValue c :=
      Nat.not_lt.mpr (Nat.le_trans (le_ofDigitChars cs _) h)
    rw [accumulate]
    simp only [hnext, ite_false]
    exact ih _ h

theorem readNumber_toDigits (negative : Bool) (n : Nat) (rest : List Char) (hrest : Ends rest) :
    readNumber negative (Nat.toDigits 10 n ++ rest)
      = finishNumber negative (Nat.toDigits 10 n) rest := by
  have htake := takeDigits_of_stops _ rest (isDigit_of_mem_toDigits n) (stops_of_ends rest hrest)
  rw [readNumber, htake]
  dsimp only
  split
  · next hnil => exact absurd hnil Nat.toDigits_ne_nil
  · next _ d ds hzero =>
    -- Only the number zero starts with a zero, and it has one digit.
    rcases Nat.eq_zero_or_pos n with rfl | hpos
    · rw [Nat.toDigits_zero] at hzero
      cases hzero
    · exact absurd rfl (head_toDigits_ne_zero n hpos '0' (by rw [hzero]; rfl))
  · rfl

theorem finishNumber_plain (negative : Bool) (whole cs : List Char)
    (h : ∀ c ∈ cs.head?, c ≠ '.') :
    finishNumber negative whole cs
      = if startsFloat cs ∨ !(accumulate 0 whole).2.isEmpty then
          finishFloat negative (accumulate 0 whole).1 (accumulate 0 whole).2.length cs
        else if !negative then some (int (accumulate 0 whole).1, cs)
        else if (accumulate 0 whole).1 = 0 ∨ Nat.pow 2 63 < (accumulate 0 whole).1 then
          some (float (Binary64.roundRatio true (accumulate 0 whole).1 1), cs)
        else some (int (-((accumulate 0 whole).1 : Int)), cs) := by
  cases cs with
  | nil => rfl
  | cons c cs =>
    have hc : c ≠ '.' := h c rfl
    simp only [finishNumber]
    split
    · next hcs => exact absurd (List.cons.inj hcs).1 hc
    · rfl

theorem finishNumber_toDigits (negative : Bool) (n : Nat) (rest : List Char)
    (hrest : Ends rest) (hn : n ≤ significandLimit) :
    finishNumber negative (Nat.toDigits 10 n) rest
      = if !negative then some (int n, rest)
        else if n = 0 ∨ Nat.pow 2 63 < n then
          some (float (Binary64.roundRatio true n 1), rest)
        else some (int (-(n : Int)), rest) := by
  have hvalue : Nat.ofDigitChars 10 (Nat.toDigits 10 n) 0 = n := Nat.ofDigitChars_ten_toDigits
  have haccumulate := accumulate_of_le (Nat.toDigits 10 n) 0 (by rw [hvalue]; exact hn)
  have hfloat := startsFloat_of_ends rest hrest
  rw [hvalue] at haccumulate
  rw [finishNumber_plain negative _ rest fun c hc => (ends_first c (hrest c hc)).2.1,
    haccumulate]
  simp [hfloat]

/-- An integer of sixty-four bits, with or without a sign, is read back. -/
theorem readNumber_nat (n : Nat) (rest : List Char) (hrest : Ends rest)
    (hn : n ≤ significandLimit) :
    readNumber false (Nat.toDigits 10 n ++ rest) = some (int n, rest) := by
  rw [readNumber_toDigits false n rest hrest, finishNumber_toDigits false n rest hrest hn]
  rfl

theorem readNumber_negative (n : Nat) (rest : List Char) (hrest : Ends rest) (hpos : 0 < n)
    (hn : n ≤ Nat.pow 2 63) :
    readNumber true (Nat.toDigits 10 n ++ rest) = some (int (-(n : Int)), rest) := by
  have hlimit : n ≤ significandLimit := Nat.le_trans hn (by decide)
  have hsmall : ¬ (n = 0 ∨ Nat.pow 2 63 < n) := by omega
  rw [readNumber_toDigits true n rest hrest, finishNumber_toDigits true n rest hrest hlimit]
  simp only [Bool.not_true, Bool.false_eq_true, ite_false, hsmall]

/-! ### Numbers in a longer text -/

theorem takeSign_append (cs rest : List Char) (hrest : Ends rest) :
    Binary64.takeSign (cs ++ rest)
      = ((Binary64.takeSign cs).1, (Binary64.takeSign cs).2 ++ rest) := by
  have hsign (c : Char) (ds : List Char) (hminus : c ≠ '-') (hplus : c ≠ '+') :
      Binary64.takeSign (c :: ds) = (false, c :: ds) := by
    simp [Binary64.takeSign, hminus, hplus]
  cases cs with
  | nil =>
    cases rest with
    | nil => rfl
    | cons c ds =>
      have hc := hrest c rfl
      simp only [isGap, Bool.or_eq_true, beq_iff_eq] at hc
      exact hsign c ds (by rintro rfl; simp at hc) (by rintro rfl; simp at hc)
  | cons c cs =>
    by_cases hminus : c = '-'
    · rw [hminus]
      rfl
    · by_cases hplus : c = '+'
      · rw [hplus]
        rfl
      · rw [List.cons_append, hsign c _ hminus hplus, hsign c _ hminus hplus]
        rfl

theorem takeExponent_append (cs rest : List Char) (hrest : Ends rest) :
    takeExponent (cs ++ rest) = (takeExponent cs).map fun e => (e.1, e.2.1, e.2.2 ++ rest) := by
  simp only [takeExponent, takeSign_append cs rest hrest,
    takeDigits_append_stops _ rest (stops_of_ends rest hrest)]
  split <;> rfl

theorem finishFloat_plain (negative : Bool) (significand : Nat) (exponent : Int)
    (cs : List Char) (h : ∀ c ∈ cs.head?, c ≠ 'e' ∧ c ≠ 'E') :
    finishFloat negative significand exponent cs
      = (Binary64.ofScaled negative significand exponent).map fun x => (float x, cs) := by
  cases cs with
  | nil => rfl
  | cons c cs =>
    have hc : ¬ (c = 'e' ∨ c = 'E') := not_or.mpr (h c rfl)
    simp only [finishFloat, hc, ite_false]

theorem finishFloat_append (negative : Bool) (significand : Nat) (exponent : Int)
    (cs rest : List Char) (hrest : Ends rest) :
    finishFloat negative significand exponent (cs ++ rest)
      = (finishFloat negative significand exponent cs).map fun e => (e.1, e.2 ++ rest) := by
  cases cs with
  | nil =>
    rw [List.nil_append, finishFloat_plain _ _ _ [] (fun _ hc => nomatch hc),
      finishFloat_plain _ _ _ rest fun c hc => (ends_first c (hrest c hc)).2.2, Option.map_map]
    rfl
  | cons c cs =>
    by_cases hc : c = 'e' ∨ c = 'E'
    · simp only [finishFloat, List.cons_append, hc, ite_true, takeExponent_append cs rest hrest]
      cases takeExponent cs with
      | none => rfl
      | some e =>
        simp only [Option.map_some]
        split
        · split <;> rfl
        · rw [Option.map_map]
          rfl
    · have hhead : ∀ d ∈ (c :: cs).head?, d ≠ 'e' ∧ d ≠ 'E' := by
        intro d hd
        rw [← Option.some.inj hd]
        exact not_or.mp hc
      rw [finishFloat_plain _ _ _ _ hhead, finishFloat_plain _ _ _ (c :: cs ++ rest) hhead,
        Option.map_map]
      rfl

theorem finishNumber_append (negative : Bool) (whole cs rest : List Char) (hrest : Ends rest) :
    finishNumber negative whole (cs ++ rest)
      = (finishNumber negative whole cs).map fun e => (e.1, e.2 ++ rest) := by
  by_cases hpoint : ∀ c ∈ cs.head?, c ≠ '.'
  · have hpoint' : ∀ c ∈ (cs ++ rest).head?, c ≠ '.' := by
      cases cs with
      | nil => exact fun c hc => (ends_first c (hrest c hc)).2.1
      | cons c cs => exact hpoint
    have hstart : startsFloat (cs ++ rest) = startsFloat cs := by
      cases cs with
      | nil => exact startsFloat_of_ends rest hrest
      | cons c cs => rfl
    rw [finishNumber_plain negative whole _ hpoint, finishNumber_plain negative whole _ hpoint',
      hstart, finishFloat_append _ _ _ cs rest hrest]
    split
    · rfl
    · split
      · rfl
      · split <;> rfl
  · obtain ⟨ds, rfl⟩ : ∃ ds, cs = '.' :: ds := by
      cases cs with
      | nil => exact absurd (fun _ hc => nomatch hc) hpoint
      | cons c ds => exact ⟨ds, by simpa using hpoint⟩
    simp only [finishNumber, List.cons_append,
      takeDigits_append_stops ds rest (stops_of_ends rest hrest),
      finishFloat_append _ _ _ _ rest hrest]
    split <;> rfl

theorem readNumber_append (negative : Bool) (cs rest : List Char) (hrest : Ends rest) :
    readNumber negative (cs ++ rest)
      = (readNumber negative cs).map fun e => (e.1, e.2 ++ rest) := by
  simp only [readNumber, takeDigits_append_stops _ rest (stops_of_ends rest hrest)]
  split
  · rfl
  · rfl
  · exact finishNumber_append negative _ _ rest hrest

end BoundSql.Json
