import BoundSql.Filter
import BoundSql.Proofs.Json.Fields
import BoundSql.Proofs.Text.Pieces

/-!
# Texts of filters and assignments

What can be read of a filter or an assignment stands in its text: the column, the sign, and the
text of the value, which goes on to the end. Main statement: a text is read as a filter in the one
way in which it splits into these parts, and an assignment is a filter with an equals sign.
-/

namespace BoundSql

/-! ### White space -/

theorem isBlank_of_isSpacing (c : Char) (h : isSpacing c = true) : isBlank c = true :=
  forall_isSpacing (isBlank · = true) (by decide) c h

theorem trimStart_skipSpacing (cs : List Char) : trimStart (skipSpacing cs) = trimStart cs := by
  induction cs with
  | nil => rfl
  | cons c cs ih =>
    cases hc : isSpacing c with
    | true =>
      have hskip : skipSpacing (c :: cs) = skipSpacing cs := List.dropWhile_cons_of_pos hc
      have htrim : trimStart (c :: cs) = trimStart cs :=
        List.dropWhile_cons_of_pos (isBlank_of_isSpacing c hc)
      rw [hskip, htrim, ih]
    | false =>
      have hskip : skipSpacing (c :: cs) = c :: cs := List.dropWhile_cons_of_neg (by simp [hc])
      rw [hskip]

theorem Scalar.ofLiteral_skipSpacing (cs : List Char) :
    ofLiteral (String.ofList (skipSpacing cs)) = ofLiteral (String.ofList cs) := by
  simp only [ofLiteral, String.toList_ofList, trimBlank, trimStart_skipSpacing]

/-! ### Column, sign and value -/

/-- A text is made of a column, a sign and the text of a value, with spacing around the column. -/
def Spells (text column : String) (sign : List Char) (raw : String) : Prop :=
  ∃ before after : List Char, before.all isSpacing = true ∧ after.all isSpacing = true ∧
    text.toList = before ++ column.toList ++ after ++ sign ++ raw.toList

/-! ### Signs -/

namespace Comparison

theorem signs_ordered :
    [ne, le, ge, eq, lt, gt, like].Pairwise fun o o' => ¬o.sign <+: o'.sign := by
  decide

theorem mem_signs (o : Comparison) : o ∈ [ne, le, ge, eq, lt, gt, like] := by
  cases o <;> decide

theorem sign_injective (o o' : Comparison) (h : o.sign = o'.sign) : o = o' := by
  cases o <;> cases o' <;> first | rfl | cases h

/-- The sign that is read is the longest one in front of the text. -/
theorem take_eq_ok (cs rest : List Char) (o : Comparison) :
    take cs = .ok (o, rest) ↔
      cs = o.sign ++ rest ∧ ∀ o' : Comparison, o'.sign <+: cs → o'.sign.length ≤ o.sign.length := by
  unfold take
  split
  · next found hfound =>
    obtain ⟨hfits, before, after, hsigns, hbefore⟩ := List.find?_eq_some_iff_append.mp hfound
    have hprefix : found.sign <+: cs := List.isPrefixOf_iff_prefix.mp hfits
    have hnone : ∀ o' ∈ before, ¬o'.sign <+: cs := by
      intro o' ho' hfits'
      simpa [List.isPrefixOf_iff_prefix.mpr hfits'] using hbefore o' ho'
    have hlongest : ∀ o' : Comparison, o'.sign <+: cs → o'.sign <+: found.sign := fun o' =>
      prefix_of_first sign before after found cs hprefix hnone (hsigns ▸ signs_ordered) o'
        (hsigns ▸ o'.mem_signs)
    constructor
    · intro h
      obtain ⟨rfl, rfl⟩ := Prod.mk.inj (Except.ok.inj h)
      exact ⟨(List.prefix_iff_eq_append.mp hprefix).symm, fun o' ho' => (hlongest o' ho').length_le⟩
    · rintro ⟨rfl, hle⟩
      have hsame : o = found := sign_injective o found
        ((hlongest o (List.prefix_append ..)).eq_of_length_le (hle found hprefix))
      rw [← hsame, List.drop_left]
  · next hnone =>
    refine iff_of_false nofun ?_
    rintro ⟨rfl, _⟩
    have hunfit := List.find?_eq_none.mp hnone o o.mem_signs
    simp at hunfit

theorem stops_sign (o : Comparison) (raw : List Char) :
    Stops isSpacing (o.sign ++ raw) ∧ Stops isIdentifierPart (o.sign ++ raw) := by
  cases o <;> exact ⟨(stops_cons ..).mpr rfl, (stops_cons ..).mpr rfl⟩

/-- Only behind `<` and `>` can the text go on so that another sign is longer. -/
theorem longest_of_not_extended (o : Comparison) (raw : List Char)
    (h : ¬((o = lt ∨ o = gt) ∧ raw.head? = some '=')) (o' : Comparison)
    (ho' : o'.sign <+: o.sign ++ raw) : o'.sign.length ≤ o.sign.length := by
  cases raw with
  | nil =>
    rw [List.append_nil] at ho'
    exact ho'.length_le
  | cons c cs =>
    cases o <;> cases o' <;> simp_all [sign]
    · exact h ho'.symm
    · exact h ho'.symm

end Comparison

/-! ### Filters -/

namespace Filter

/-- The text is a column that goes on as far as it can, the longest sign that fits, and the text of
a value, with spacing around the column. -/
def Splits (text column : String) (o : Comparison) (raw : String) : Prop :=
  ∃ before after : List Char,
    text.toList = before ++ (column.toList ++ (after ++ (o.sign ++ raw.toList))) ∧
    before.all isSpacing = true ∧ after.all isSpacing = true ∧ isIdentifier column = true ∧
    Stops isIdentifierPart (after ++ (o.sign ++ raw.toList)) ∧
    ∀ o' : Comparison, o'.sign <+: o.sign ++ raw.toList → o'.sign.length ≤ o.sign.length

theorem parse_eq_ok (text : String) (f : Filter) :
    parse text = .ok f ↔ ∃ raw, Splits text f.column f.comparison raw ∧ f.value = .ofLiteral raw := by
  rw [parse, atPosition, mapError_eq_ok]
  constructor
  · intro h
    simp only [scan, bind_eq_ok, pure_eq_ok, Prod.exists] at h
    obtain ⟨column, rest, hcolumn, o, raw, hsign, rfl⟩ := h
    obtain ⟨before, hbefore, htext⟩ := exists_spacing text.toList
    obtain ⟨after, hafter, hrest⟩ := exists_spacing rest
    obtain ⟨hname, hfront, hstops⟩ := (takeIdentifier_eq_ok ..).mp hcolumn
    obtain ⟨hsign, hlongest⟩ := (Comparison.take_eq_ok ..).mp hsign
    rw [hsign] at hrest hlongest
    rw [hfront, ← hrest] at htext
    rw [← hrest] at hstops
    refine ⟨String.ofList raw, ⟨before, after, ?_, hbefore, hafter, ?_, ?_, ?_⟩,
      Scalar.ofLiteral_skipSpacing raw⟩
    · simpa using htext.symm
    · simpa [isIdentifier] using hname
    · simpa using hstops
    · simpa using hlongest
  · rintro ⟨raw, ⟨before, after, htext, hbefore, hafter, hname, hstops, hlongest⟩, hvalue⟩
    obtain ⟨column, o, v⟩ := f
    have hfront := skipSpacing_of_stops before _ hbefore (stops_identifier column.toList
      (after ++ (o.sign ++ raw.toList)) hname)
    have hbehind := skipSpacing_of_stops after _ hafter (o.stops_sign raw.toList).1
    have hsign := (Comparison.take_eq_ok _ raw.toList o).mpr ⟨hbehind, by rwa [hbehind]⟩
    simp only [scan, bind_eq_ok, pure_eq_ok, Prod.exists]
    refine ⟨_, _, (takeIdentifier_eq_ok ..).mpr ⟨hname, htext ▸ hfront, hstops⟩, _, _, hsign, ?_⟩
    rw [Scalar.ofLiteral_skipSpacing, String.ofList_toList, String.ofList_toList, ← hvalue]

theorem splits_of_not_extended (column : String) (o : Comparison) (raw : String)
    (hname : isIdentifier column = true)
    (hraw : ¬((o = .lt ∨ o = .gt) ∧ raw.toList.head? = some '=')) :
    Splits (column ++ String.ofList o.sign ++ raw) column o raw := by
  refine ⟨[], [], ?_, rfl, rfl, hname, (o.stops_sign raw.toList).2,
    o.longest_of_not_extended raw.toList hraw⟩
  simp

/-- The text of a filter spells its column, its sign and its value. -/
theorem parse_spells (text : String) (f : Filter) (h : parse text = .ok f) :
    ∃ raw, Spells text f.column f.comparison.sign raw ∧ f.value = .ofLiteral raw := by
  obtain ⟨raw, ⟨before, after, htext, hbefore, hafter, _⟩, hvalue⟩ := (parse_eq_ok text f).mp h
  refine ⟨raw, ⟨before, after, hbefore, hafter, ?_⟩, hvalue⟩
  rw [htext]
  simp only [List.append_assoc]

end Filter

/-! ### Assignments -/

namespace ValueAssignment

theorem expectChar_eq_take (cs rest : List Char) :
    expectChar '=' cs = .ok rest ↔ Comparison.take cs = .ok (.eq, rest) := by
  rw [expectChar_eq_ok, Comparison.take_eq_ok]
  refine ⟨?_, And.left⟩
  rintro rfl
  exact ⟨rfl, Comparison.longest_of_not_extended .eq rest (by simp)⟩

/-- An assignment is a filter with an equals sign. -/
theorem parse_eq_ok (text : String) (a : ValueAssignment) :
    parse text = .ok a ↔ Filter.parse text = .ok ⟨a.column, .eq, a.value⟩ := by
  obtain ⟨column, v⟩ := a
  simp only [parse, Filter.parse, atPosition, mapError_eq_ok, scan, Filter.scan, bind_eq_ok,
    pure_eq_ok, Prod.exists, expectChar_eq_take, mk.injEq, Filter.mk.injEq]
  constructor
  · rintro ⟨name, rest, hname, raw, hsign, rfl, rfl⟩
    exact ⟨name, rest, hname, _, raw, hsign, rfl, rfl, rfl⟩
  · rintro ⟨name, rest, hname, _, raw, hsign, rfl, rfl, rfl⟩
    exact ⟨name, rest, hname, raw, hsign, rfl, rfl⟩

/-- The text of an assignment spells its column and its value. -/
theorem parse_spells (text : String) (a : ValueAssignment) (h : parse text = .ok a) :
    ∃ raw, Spells text a.column ['='] raw ∧ a.value = .ofLiteral raw := by
  obtain ⟨raw, hraw, hvalue⟩ := Filter.parse_spells text _ ((parse_eq_ok text a).mp h)
  exact ⟨raw, hraw, hvalue⟩

end ValueAssignment

/-! ### Both -/

namespace Filter

/--
A filter is read exactly where the text is a column, a sign and a value, the column and the sign
being as long as they can. So a column, a sign and the text of a value are read back if they are
written one after the other, unless the value starts with `=` and makes `<` or `>` a longer sign.
What is read as an assignment is what is read as a filter with an equals sign.
-/
theorem parse_splits :
    (∀ text column o v, parse text = .ok ⟨column, o, v⟩ ↔
      ∃ raw, Splits text column o raw ∧ v = .ofLiteral raw) ∧
    (∀ (column : String) (o : Comparison) (raw : String), isIdentifier column = true →
      (parse (column ++ String.ofList o.sign ++ raw) = .ok ⟨column, o, .ofLiteral raw⟩ ↔
        ¬((o = .lt ∨ o = .gt) ∧ raw.toList.head? = some '='))) ∧
    ∀ text column v, ValueAssignment.parse text = .ok ⟨column, v⟩ ↔
      parse text = .ok ⟨column, .eq, v⟩ := by
  have hread : ∀ (column : String) (o : Comparison) (raw : String), isIdentifier column = true →
      ¬((o = .lt ∨ o = .gt) ∧ raw.toList.head? = some '=') →
        parse (column ++ String.ofList o.sign ++ raw) = .ok ⟨column, o, .ofLiteral raw⟩ := by
    intro column o raw hname hraw
    exact (parse_eq_ok ..).mpr ⟨raw, splits_of_not_extended column o raw hname hraw, rfl⟩
  refine ⟨fun text column o v => parse_eq_ok text _, fun column o raw hname =>
    ⟨?_, hread column o raw hname⟩, fun text column v => ValueAssignment.parse_eq_ok text _⟩
  rintro h ⟨ho, hraw⟩
  obtain ⟨rest, hrest⟩ := List.head?_eq_some_iff.mp hraw
  -- The text is also that of a filter with the longer sign, and it is not read in two ways.
  have hlonger : ∃ o' : Comparison, o' ≠ o ∧ ¬(o' = .lt ∨ o' = .gt) ∧
      o'.sign ++ rest = o.sign ++ raw.toList := by
    rw [hrest]
    rcases ho with rfl | rfl
    · exact ⟨.le, by decide, by decide, rfl⟩
    · exact ⟨.ge, by decide, by decide, rfl⟩
  obtain ⟨o', hne, hstrict, hsame⟩ := hlonger
  have hread' := hread column o' (String.ofList rest) hname fun h => hstrict h.1
  have htext : column ++ String.ofList o'.sign ++ String.ofList rest
      = column ++ String.ofList o.sign ++ raw := by
    rw [String.append_assoc, ← String.ofList_append, hsame, String.ofList_append,
      String.ofList_toList, String.append_assoc]
  rw [htext, h] at hread'
  exact hne (congrArg comparison (Except.ok.inj hread')).symm

/-- A blank keeps the two signs apart, and behind an equals sign any text is a value. -/
theorem parse_splits_level :
    isIdentifier "level_2" = true ∧
      parse "level_2< =5" = .ok ⟨"level_2", .lt, .text "=5"⟩ ∧
      parse "level_2<=5" ≠ .ok ⟨"level_2", .lt, .text "=5"⟩ ∧
      ValueAssignment.parse "level_2=>5" = .ok ⟨"level_2", .text ">5"⟩ := by
  obtain ⟨_, hread, hassign⟩ := parse_splits
  have hname : isIdentifier "level_2" = true := by decide
  have hblank := (hread "level_2" .lt " =5" hname).mpr (by decide)
  have hlonger := mt (hread "level_2" .lt "=5" hname).mp (by decide)
  have hequals := (hread "level_2" .eq ">5" hname).mpr (by decide)
  exact ⟨hname, hblank, hlonger, (hassign _ _ _).mpr hequals⟩

end Filter

end BoundSql
