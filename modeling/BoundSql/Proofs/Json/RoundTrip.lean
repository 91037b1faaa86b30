import Mathlib.Algebra.Ring.Int.Defs
import Mathlib.Data.List.DropRight
import BoundSql.Proofs.Json.Number
import BoundSql.Proofs.Json.Parts
import BoundSql.Proofs.Json.Quoted

/-!
# Reading what is written

The text of a document is read as the document, its members in the order of their keys. The
document may nest as deep as the reader goes, its integers must fit sixty-four bits, and its floats
must be read back when they stand alone.
-/

namespace BoundSql.Json

/-! ### Gaps -/

theorem skipGap_append (gap cs : List Char) (h : ∀ c ∈ gap, isGap c = true) :
    skipGap (gap ++ cs) = skipGap cs :=
  List.dropWhile_append_of_pos h

theorem skipGap_skipGap (cs : List Char) : skipGap (skipGap cs) = skipGap cs :=
  List.dropWhile_idempotent _ _

theorem skipGap_cons (c : Char) (cs : List Char) (h : isGap c = false) :
    skipGap (c :: cs) = c :: cs := by
  simp [skipGap, h]

theorem readValue_skipGap (fuel depth : Nat) (cs : List Char) :
    readValue fuel depth (skipGap cs) = readValue fuel depth cs := by
  cases fuel with
  | zero => rfl
  | succ fuel => simp only [readValue, skipGap_skipGap]

theorem readItems_skipGap (fuel depth : Nat) (cs : List Char) :
    readItems fuel depth (skipGap cs) = readItems fuel depth cs := by
  cases fuel with
  | zero => rfl
  | succ fuel => simp only [readItems, readValue_skipGap]

theorem readMembers_skipGap (fuel depth : Nat) (cs : List Char) :
    readMembers fuel depth (skipGap cs) = readMembers fuel depth cs := by
  cases fuel with
  | zero => rfl
  | succ fuel => simp only [readMembers, skipGap_skipGap]

theorem readValue_gap (fuel depth : Nat) (gap cs : List Char) (h : ∀ c ∈ gap, isGap c = true) :
    readValue fuel depth (gap ++ cs) = readValue fuel depth cs := by
  rw [← readValue_skipGap, skipGap_append gap cs h, readValue_skipGap]

theorem readItems_gap (fuel depth : Nat) (gap cs : List Char) (h : ∀ c ∈ gap, isGap c = true) :
    readItems fuel depth (gap ++ cs) = readItems fuel depth cs := by
  rw [← readItems_skipGap, skipGap_append gap cs h, readItems_skipGap]

theorem readMembers_gap (fuel depth : Nat) (gap cs : List Char) (h : ∀ c ∈ gap, isGap c = true) :
    readMembers fuel depth (gap ++ cs) = readMembers fuel depth cs := by
  rw [← readMembers_skipGap, skipGap_append gap cs h, readMembers_skipGap]

theorem ends_gap (gap rest : List Char) (h : ∀ c ∈ gap, isGap c = true) (hrest : Ends rest) :
    Ends (gap ++ rest) := by
  cases gap with
  | nil => exact hrest
  | cons c cs => exact ends_cons c _ (Or.inl (h c (List.mem_cons_self ..)))

/-- The layout sets parts apart by gaps only. -/
structure Layout.Gapped (l : Layout) : Prop where
  lineBreak : ∀ level, ∀ c ∈ l.lineBreak level, isGap c = true
  colon : ∃ gap, l.colon = ':' :: gap ∧ ∀ c ∈ gap, isGap c = true

theorem Layout.pretty_gapped : Layout.pretty.Gapped where
  lineBreak level c hc := by
    rcases List.mem_cons.mp hc with rfl | hc
    · rfl
    · rw [List.eq_of_mem_replicate hc]
      rfl
  colon := ⟨[' '], rfl, by simp [isGap]⟩

/-! ### Numbers -/

theorem readValue_of_digit (fuel depth : Nat) (c : Char) (cs : List Char)
    (h : c.isDigit = true) : readValue (fuel + 1) depth (c :: cs) = readNumber false (c :: cs) := by
  have hgap : isGap c = false := by
    by_contra hne
    simp only [isGap, Bool.not_eq_false, Bool.or_eq_true, beq_iff_eq] at hne
    rcases hne with ((rfl | rfl) | rfl) | rfl <;> revert h <;> decide
  have hother : c ≠ '"' ∧ c ≠ '[' ∧ c ≠ '\x7b' ∧ c ≠ '-' := by
    refine ⟨?_, ?_, ?_, ?_⟩ <;> (rintro rfl; revert h; decide)
  rw [readValue, skipGap_cons c cs hgap]
  split
  · next heq => cases heq
  · next heq => exact absurd (List.cons.inj heq).1 hother.1
  · next heq => exact absurd (List.cons.inj heq).1 hother.2.1
  · next heq => exact absurd (List.cons.inj heq).1 hother.2.2.1
  · next heq => exact absurd (List.cons.inj heq).1 hother.2.2.2
  · next heq =>
    obtain ⟨rfl, rfl⟩ := List.cons.inj heq
    rw [if_pos h]

/-- The integer is one that the reader keeps as such. -/
def FitsWord (n : Int) : Prop := -(2 ^ 63) ≤ n ∧ n < 2 ^ 64

theorem readValue_intText (fuel depth : Nat) (n : Int) (rest : List Char) (hrest : Ends rest)
    (hn : FitsWord n) : readValue (fuel + 1) depth (intText n ++ rest) = some (int n, rest) := by
  unfold intText
  split
  · next hneg =>
    have hread := readNumber_negative n.natAbs rest hrest (by omega) (by
      have h63 : Nat.pow 2 63 = 2 ^ 63 := rfl
      have hlow := hn.1
      omega)
    rw [show -(n.natAbs : Int) = n by omega] at hread
    exact hread
  · next hpos =>
    have hread := readNumber_nat n.natAbs rest hrest (by
      have h64 : significandLimit = 2 ^ 64 - 1 := rfl
      have hhigh := hn.2
      omega)
    rw [show (n.natAbs : Int) = n by omega] at hread
    obtain ⟨d, ds, hds⟩ := List.exists_cons_of_ne_nil (Nat.toDigits_ne_nil (n := n.natAbs) (b := 10))
    have hd : d.isDigit = true := isDigit_of_mem_toDigits n.natAbs d (by rw [hds]; simp)
    rw [hds] at hread ⊢
    rw [List.cons_append, readValue_of_digit fuel depth d _ hd]
    exact hread

theorem skipGap_of_cons (cs rest ds : List Char) (c : Char) (h : skipGap cs = c :: ds) :
    skipGap (cs ++ rest) = c :: (ds ++ rest) := by
  induction cs with
  | nil => cases h
  | cons d cs ih =>
    by_cases hd : isGap d = true
    · simp only [skipGap, List.cons_append, List.dropWhile_cons, hd, ite_true] at h ih ⊢
      exact ih h
    · simp only [skipGap, List.cons_append, List.dropWhile_cons, hd, Bool.false_eq_true,
        ite_false, List.cons.injEq] at h ⊢
      exact ⟨h.1, by rw [h.2]⟩

/-- A text that is read as a float is read as a number, whatever follows it. -/
theorem readNumber_of_readValue (fuel depth : Nat) (cs r : List Char) (x : Binary64)
    (h : readValue fuel depth cs = some (float x, r)) :
    ∃ negative ds, readNumber negative ds = some (float x, r) ∧
      ∀ fuel depth rest,
        readValue (fuel + 1) depth (cs ++ rest) = readNumber negative (ds ++ rest) := by
  cases fuel with
  | zero => cases h
  | succ fuel =>
    rw [readValue] at h
    split at h
    · cases h
    · simp at h
    · split at h
      · cases h
      · split at h <;> simp at h
    · split at h
      · cases h
      · split at h <;> simp at h
    · next ds hds =>
      refine ⟨true, ds, h, fun fuel depth rest => ?_⟩
      rw [← readValue_skipGap, skipGap_of_cons cs rest ds '-' hds]
      rfl
    · next c ds _ _ _ _ hds =>
      split at h
      · next hdigit =>
        refine ⟨false, c :: ds, h, fun fuel depth rest => ?_⟩
        rw [← readValue_skipGap, skipGap_of_cons cs rest ds c hds,
          readValue_of_digit fuel depth c _ hdigit, List.cons_append]
      · grind [readWord]

/-- A float that is read back from its own text is read back inside a document. -/
theorem readValue_floatText (fuel depth : Nat) (x : Binary64) (rest : List Char)
    (hrest : Ends rest) (hx : parse (pretty (float x)) = .ok (float x)) :
    ∃ r, readValue (fuel + 1) depth (floatText x ++ rest) = some (float x, r) ∧
      skipGap r = skipGap rest := by
  have htext : (pretty (float x)).toList = floatText x := String.toList_ofList
  rw [parse, htext] at hx
  cases hfront : readFront (floatText x) with
  | none => simp [hfront] at hx
  | some front =>
    obtain ⟨j, r⟩ := front
    simp only [hfront] at hx
    split at hx
    · next hgap =>
      obtain rfl := Except.ok.inj hx
      obtain ⟨negative, ds, hread, hany⟩ := readNumber_of_readValue _ _ _ r x hfront
      refine ⟨r ++ rest, ?_, skipGap_append r rest ?_⟩
      · rw [hany, readNumber_append negative ds rest hrest, hread]
        rfl
      · exact List.dropWhile_eq_nil_iff.mp (List.isEmpty_iff.mp hgap)
    · cases hx

/-! ### Documents -/

/-- What the reader needs to know of a number. -/
def Readable : Json → Prop
  | int n => FitsWord n
  | float x => parse (pretty (float x)) = .ok (float x)
  | _ => True

/-- Wherever the text of the document stands, the reader finds the document. -/
def ReadsBack (l : Layout) (j : Json) : Prop :=
  ∀ (level fuel depth : Nat) (rest : List Char), j.depth ≤ depth →
    2 * (write l level j).length ≤ fuel → Ends rest →
    ∃ r, readValue fuel depth (write l level j ++ rest) = some (j.sorted, r) ∧
      skipGap r = skipGap rest

theorem head_of_readValue (fuel depth : Nat) (cs r : List Char) (j : Json)
    (h : readValue fuel depth cs = some (j, r)) : ∃ c ds, skipGap cs = c :: ds ∧ c ≠ ']' := by
  cases fuel with
  | zero => cases h
  | succ fuel =>
    rw [readValue] at h
    cases hcs : skipGap cs with
    | nil => simp [hcs] at h
    | cons c ds =>
      refine ⟨c, ds, rfl, ?_⟩
      rintro rfl
      simp [hcs] at h

theorem readItems_write (l : Layout) (hl : l.Gapped) (level : Nat) (j : Json) (js : List Json)
    (h : ∀ i ∈ j :: js, ReadsBack l i) (fuel depth : Nat) (gap rest : List Char)
    (hgap : ∀ c ∈ gap, isGap c = true) (hdepth : ∀ i ∈ j :: js, i.depth ≤ depth)
    (hfuel : 2 * (write l level j ++ writeItems l level js).length + 1 ≤ fuel) :
    readItems fuel depth (write l level j ++ (writeItems l level js ++ (gap ++ ']' :: rest)))
      = some ((j :: js).map sorted, rest) := by
  induction js generalizing j fuel with
  | nil =>
    cases fuel with
    | zero => omega
    | succ fuel =>
      have hlen : 2 * (write l level j).length ≤ fuel := by
        simp only [writeItems, List.append_nil] at hfuel
        omega
      obtain ⟨r, hread, hskip⟩ := h j (List.mem_cons_self ..) level fuel depth
        (gap ++ ']' :: rest) (hdepth j (List.mem_cons_self ..)) hlen
        (ends_gap gap _ hgap (ends_cons ']' rest (by simp)))
      rw [skipGap_append gap _ hgap, skipGap_cons ']' rest (by decide)] at hskip
      simp only [readItems, writeItems, List.nil_append, hread, hskip, List.map_cons, List.map_nil]
  | cons i is ih =>
    cases fuel with
    | zero => omega
    | succ fuel =>
      have hlens : 2 * (write l level j).length ≤ fuel ∧
          2 * (write l level i ++ writeItems l level is).length + 1 ≤ fuel := by
        simp only [writeItems, List.length_append, List.length_cons] at hfuel ⊢
        omega
      obtain ⟨r, hread, hskip⟩ := h j (List.mem_cons_self ..) level fuel depth
        (writeItems l level (i :: is) ++ (gap ++ ']' :: rest))
        (hdepth j (List.mem_cons_self ..)) hlens.1 (ends_cons ',' _ (by simp))
      have hnext := ih i (fun k hk => h k (List.mem_cons_of_mem _ hk)) fuel
        (fun k hk => hdepth k (List.mem_cons_of_mem _ hk)) hlens.2
      have htext : writeItems l level (i :: is) ++ (gap ++ ']' :: rest)
          = ',' :: (l.lineBreak level ++ (write l level i ++ (writeItems l level is
            ++ (gap ++ ']' :: rest)))) := by
        simp only [writeItems, List.cons_append, List.append_assoc]
      rw [htext, skipGap_cons ',' _ (by decide)] at hskip
      rw [htext] at hread
      rw [htext, readItems, hread]
      simp only [hskip, readItems_gap fuel depth _ _ (hl.lineBreak level), hnext]
      rfl

/-- A member is read, and the others if a comma follows its value. -/
theorem readMembers_key (l : Layout) (hl : l.Gapped) (fuel depth : Nat) (key : String)
    (cs r : List Char) (j : Json) (hread : readValue fuel depth cs = some (j, r)) :
    (∀ rest, skipGap r = '\x7d' :: rest →
      readMembers (fuel + 1) depth (stringText key ++ (l.colon ++ cs)) = some ([(key, j)], rest)) ∧
    ∀ ds, skipGap r = ',' :: ds →
      readMembers (fuel + 1) depth (stringText key ++ (l.colon ++ cs))
        = (readMembers fuel depth ds).map fun m => (addMember key j m.1, m.2) := by
  obtain ⟨gap, hcolon, hgap⟩ := hl.colon
  have htext : stringText key ++ (l.colon ++ cs)
      = '"' :: (key.toList.flatMap escapeChar ++ '"' :: (':' :: (gap ++ cs))) := by
    simp only [stringText, hcolon, List.cons_append, List.append_assoc, List.nil_append]
  have hvalue : readValue fuel depth (gap ++ cs) = some (j, r) := by
    rw [readValue_gap fuel depth gap cs hgap, hread]
  have hmark : skipGap (':' :: (gap ++ cs)) = ':' :: (gap ++ cs) := skipGap_cons ':' _ (by decide)
  rw [htext, readMembers, skipGap_cons '"' _ (by decide)]
  constructor
  · intro rest hskip
    simp only [readString_stringText, hmark, hvalue, hskip, String.ofList_toList]
  · intro ds hskip
    simp only [readString_stringText, hmark, hvalue, hskip, String.ofList_toList]

theorem readMembers_write (l : Layout) (hl : l.Gapped) (level : Nat) (key : String) (j : Json)
    (ms : List (String × Json)) (h : ∀ m ∈ (key, j) :: ms, ReadsBack l m.2) (fuel depth : Nat)
    (gap rest : List Char) (hgap : ∀ c ∈ gap, isGap c = true)
    (hdepth : ∀ m ∈ (key, j) :: ms, m.2.depth ≤ depth)
    (hfuel : 2 * (write l level j ++ writeMembers l level ms).length + 1 ≤ fuel) :
    readMembers fuel depth (stringText key ++ (l.colon ++ (write l level j
        ++ (writeMembers l level ms ++ (gap ++ '\x7d' :: rest)))))
      = some (sortedMembers ((key, j) :: ms), rest) := by
  induction ms generalizing key j fuel with
  | nil =>
    cases fuel with
    | zero => omega
    | succ fuel =>
      have hlen : 2 * (write l level j).length ≤ fuel := by
        simp only [writeMembers, List.append_nil] at hfuel
        omega
      obtain ⟨r, hread, hskip⟩ := h _ (List.mem_cons_self ..) level fuel depth
        (gap ++ '\x7d' :: rest) (hdepth _ (List.mem_cons_self ..)) hlen
        (ends_gap gap _ hgap (ends_cons '\x7d' rest (by simp)))
      rw [skipGap_append gap _ hgap, skipGap_cons '\x7d' rest (by decide)] at hskip
      rw [writeMembers, List.nil_append]
      exact (readMembers_key l hl fuel depth key _ r j.sorted hread).1 rest hskip
  | cons m ms ih =>
    obtain ⟨key', i⟩ := m
    cases fuel with
    | zero => omega
    | succ fuel =>
      have hlens : 2 * (write l level j).length ≤ fuel ∧
          2 * (write l level i ++ writeMembers l level ms).length + 1 ≤ fuel := by
        simp only [writeMembers, List.length_append, List.length_cons] at hfuel ⊢
        omega
      obtain ⟨r, hread, hskip⟩ := h _ (List.mem_cons_self ..) level fuel depth
        (writeMembers l level ((key', i) :: ms) ++ (gap ++ '\x7d' :: rest))
        (hdepth _ (List.mem_cons_self ..)) hlens.1 (ends_cons ',' _ (by simp))
      have hnext := ih key' i (fun n hn => h n (List.mem_cons_of_mem _ hn)) fuel
        (fun n hn => hdepth n (List.mem_cons_of_mem _ hn)) hlens.2
      have htext : writeMembers l level ((key', i) :: ms) ++ (gap ++ '\x7d' :: rest)
          = ',' :: (l.lineBreak level ++ (stringText key' ++ (l.colon ++ (write l level i
            ++ (writeMembers l level ms ++ (gap ++ '\x7d' :: rest)))))) := by
        simp only [writeMembers, List.cons_append, List.append_assoc]
      rw [htext, skipGap_cons ',' _ (by decide)] at hskip
      rw [htext] at hread
      rw [htext, (readMembers_key l hl fuel depth key _ r j.sorted hread).2 _ hskip,
        readMembers_gap fuel depth _ _ (hl.lineBreak level), hnext]
      rfl

theorem write_ne_nil (l : Layout) (level : Nat) (j : Json) (hj : j.Readable) :
    write l level j ≠ [] := by
  cases j with
  | null => simp [write]
  | bool b => cases b <;> simp [write]
  | int n =>
    rw [write, intText]
    split
    · simp
    · exact Nat.toDigits_ne_nil
  | float x =>
    intro hnil
    have htext : pretty (float x) = "" := by
      rw [write] at hnil
      rw [pretty, write, hnil, String.ofList_nil]
    simp only [Readable, htext] at hj
    cases hj
  | string s => simp [write, stringText]
  | array items => cases items <;> simp [write]
  | object members =>
    cases members with
    | nil => simp [write]
    | cons m ms =>
      obtain ⟨key, j⟩ := m
      simp [write]

theorem readsBack_of_succ (l : Layout) (j : Json) (hj : j.Readable)
    (h : ∀ (level fuel depth : Nat) (rest : List Char), j.depth ≤ depth →
      2 * (write l level j).length ≤ fuel + 1 → Ends rest →
      ∃ r, readValue (fuel + 1) depth (write l level j ++ rest) = some (j.sorted, r) ∧
        skipGap r = skipGap rest) : ReadsBack l j := by
  intro level fuel depth rest hdepth hfuel hrest
  have hpos : 0 < (write l level j).length := List.length_pos_of_ne_nil (write_ne_nil l level j hj)
  obtain ⟨fuel, rfl⟩ : ∃ n, fuel = n + 1 := ⟨fuel - 1, by omega⟩
  exact h level fuel depth rest hdepth hfuel hrest

theorem readValue_array (fuel depth : Nat) (cs ds : List Char) (c : Char)
    (hcs : skipGap cs = c :: ds) (hc : c ≠ ']') :
    readValue (fuel + 1) (depth + 1) ('[' :: cs)
      = (readItems fuel depth cs).map fun r => (array r.1, r.2) := by
  rw [readValue, skipGap_cons '[' cs (by decide), ← readItems_skipGap]
  simp only [hcs, Nat.add_sub_cancel, Nat.succ_ne_zero, ite_false]
  split
  · next heq => exact absurd (List.cons.inj heq).1 hc
  · rfl

theorem readValue_object (fuel depth : Nat) (key : String) (gap cs : List Char)
    (hgap : ∀ c ∈ gap, isGap c = true) :
    readValue (fuel + 1) (depth + 1) ('\x7b' :: (gap ++ (stringText key ++ cs)))
      = (readMembers fuel depth (stringText key ++ cs)).map fun r => (object r.1, r.2) := by
  have hquote : skipGap (gap ++ (stringText key ++ cs)) = stringText key ++ cs := by
    rw [skipGap_append gap _ hgap]
    exact skipGap_cons '"' _ (by decide)
  rw [readValue, skipGap_cons '\x7b' _ (by decide)]
  simp only [hquote, Nat.add_sub_cancel, Nat.succ_ne_zero, ite_false]
  rfl

/-- The text of a readable document is read as the document, wherever it stands. -/
theorem readsBack (l : Layout) (hl : l.Gapped) (j : Json) (hj : ∀ d ∈ j.parts, d.Readable) :
    ReadsBack l j := by
  induction j using Json.induct with
  | null =>
    exact readsBack_of_succ l _ trivial fun level fuel depth rest _ _ _ => ⟨rest, rfl, rfl⟩
  | bool b =>
    refine readsBack_of_succ l _ trivial fun level fuel depth rest _ _ _ => ⟨rest, ?_, rfl⟩
    cases b <;> rfl
  | string s =>
    refine readsBack_of_succ l _ trivial fun level fuel depth rest _ _ _ => ⟨rest, ?_, rfl⟩
    have htext : write l level (string s) ++ rest
        = '"' :: (s.toList.flatMap escapeChar ++ '"' :: rest) := by
      simp only [write, stringText, List.cons_append, List.append_assoc, List.nil_append]
    rw [htext, readValue, skipGap_cons '"' _ (by decide)]
    simp only [readString_stringText, Option.map_some, String.ofList_toList, sorted]
  | int n =>
    have hn := hj _ (List.mem_singleton.mpr rfl)
    exact readsBack_of_succ l _ hn fun level fuel depth rest _ _ hrest =>
      ⟨rest, readValue_intText fuel depth n rest hrest hn, rfl⟩
  | float x =>
    have hx := hj _ (List.mem_singleton.mpr rfl)
    exact readsBack_of_succ l _ hx fun level fuel depth rest _ _ hrest =>
      readValue_floatText fuel depth x rest hrest hx
  | array items ih =>
    rw [forall_parts_array] at hj
    refine readsBack_of_succ l _ hj.1 fun level fuel depth rest hdepth hfuel hrest => ?_
    have hitems : ∀ i ∈ items, ReadsBack l i := fun i hi => ih i hi (hj.2 i hi)
    obtain ⟨depth, rfl⟩ : ∃ n, depth = n + 1 := ⟨depth - 1, by rw [Json.depth] at hdepth; omega⟩
    have hdepths := (depthOfItems_le items depth).mp (by rw [Json.depth] at hdepth; omega)
    refine ⟨rest, ?_, rfl⟩
    cases items with
    | nil => rfl
    | cons i is =>
      have htext : write l level (array (i :: is)) ++ rest
          = '[' :: (l.lineBreak (level + 1) ++ (write l (level + 1) i
            ++ (writeItems l (level + 1) is ++ (l.lineBreak level ++ ']' :: rest)))) := by
        simp only [write, List.cons_append, List.append_assoc, List.nil_append]
      have hlen : 2 * (write l (level + 1) i ++ writeItems l (level + 1) is).length + 1 ≤ fuel := by
        simp only [write, List.length_cons, List.length_append, List.length_nil] at hfuel ⊢
        omega
      have hends : Ends (writeItems l (level + 1) is ++ (l.lineBreak level ++ ']' :: rest)) := by
        cases is with
        | nil => exact ends_gap (l.lineBreak level) _ (hl.lineBreak level) (ends_cons ']' rest (by simp))
        | cons k ks => exact ends_cons ',' _ (by simp)
      obtain ⟨r, hread, _⟩ := hitems i (List.mem_cons_self ..) (level + 1) _ i.depth _
        (Nat.le_refl _) (Nat.le_refl _) hends
      obtain ⟨c, ds, hhead, hc⟩ := head_of_readValue _ _ _ _ _ hread
      rw [htext, readValue_array fuel depth _ ds c
        (by rw [skipGap_append _ _ (hl.lineBreak (level + 1)), hhead]) hc,
        readItems_gap fuel depth _ _ (hl.lineBreak (level + 1)),
        readItems_write l hl (level + 1) i is hitems fuel depth _ rest (hl.lineBreak level)
          hdepths hlen, sorted, sortedItems_eq_map]
      rfl
  | object members ih =>
    rw [forall_parts_object] at hj
    refine readsBack_of_succ l _ hj.1 fun level fuel depth rest hdepth hfuel hrest => ?_
    have hmembers : ∀ m ∈ members, ReadsBack l m.2 := fun m hm => ih m hm (hj.2 m hm)
    obtain ⟨depth, rfl⟩ : ∃ n, depth = n + 1 := ⟨depth - 1, by rw [Json.depth] at hdepth; omega⟩
    have hdepths := (depthOfMembers_le members depth).mp (by rw [Json.depth] at hdepth; omega)
    refine ⟨rest, ?_, rfl⟩
    cases members with
    | nil => rfl
    | cons m ms =>
      obtain ⟨key, i⟩ := m
      have htext : write l level (object ((key, i) :: ms)) ++ rest
          = '\x7b' :: (l.lineBreak (level + 1) ++ (stringText key ++ (l.colon
            ++ (write l (level + 1) i ++ (writeMembers l (level + 1) ms
              ++ (l.lineBreak level ++ '\x7d' :: rest)))))) := by
        simp only [write, List.cons_append, List.append_assoc, List.nil_append]
      have hlen : 2 * (write l (level + 1) i ++ writeMembers l (level + 1) ms).length + 1
          ≤ fuel := by
        simp only [write, List.length_cons, List.length_append, List.length_nil] at hfuel ⊢
        omega
      rw [htext, readValue_object fuel depth key _ _ (hl.lineBreak (level + 1)),
        readMembers_write l hl (level + 1) key i ms hmembers fuel depth _ rest (hl.lineBreak level)
          hdepths hlen, sorted]
      rfl

/-- A document that is written is read again, its members in the order of their keys. -/
theorem parse_pretty (j : Json) (hj : ∀ d ∈ j.parts, d.Readable) (hdepth : j.depth ≤ depthLimit) :
    parse j.pretty = .ok j.sorted := by
  obtain ⟨r, hread, hskip⟩ := readsBack .pretty Layout.pretty_gapped j hj 0
    (2 * (write .pretty 0 j).length + 2) depthLimit [] hdepth (by omega) ends_nil
  rw [List.append_nil] at hread
  have hfront : readFront (write .pretty 0 j) = some (j.sorted, r) := hread
  have hempty : (skipGap r).isEmpty = true := by rw [hskip]; rfl
  rw [parse, pretty, String.toList_ofList, hfront]
  simp only [hempty, ite_true]

end BoundSql.Json
