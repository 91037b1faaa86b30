import BoundSql.Proofs.Json.Fields
import BoundSql.Proofs.Numeric.Digits

/-!
# Texts of column types

The text of a column type is a word for the type, in any case, and perhaps a length in parentheses,
with spacing around both and inside the parentheses. Main statement: these texts and no others are
read, each as the type and the length that it writes.
-/

namespace BoundSql

namespace ColumnType

/-! ### What a text writes -/

/-- The words for a type. -/
def keywords : ColumnType → List String
  | integer => ["integer", "int"]
  | string => ["string", "varchar"]
  | text => ["text"]
  | float => ["float"]
  | boolean => ["boolean", "bool"]
  | date => ["date"]
  | datetime => ["datetime"]
  | timestamp => ["timestamp"]

/-- A word for the type, whose letters may be capitals. -/
def Names (word : List Char) (type : ColumnType) : Prop :=
  ∃ keyword ∈ type.keywords, word.map Char.toLower = keyword.toList

/-- A length in parentheses behind spacing, or nothing. -/
inductive WritesLength : List Char → Option UInt32 → Prop
  | absent : WritesLength [] none
  | given {before inside digits behind : List Char} {n : UInt32} :
      before.all isSpacing = true → inside.all isSpacing = true → behind.all isSpacing = true →
      digits ≠ [] → digits.all Char.isDigit = true → digitsValue digits ≤ 4294967295 →
      n.toNat = digitsValue digits →
      WritesLength (before ++ '(' :: (inside ++ (digits ++ (behind ++ [')'])))) (some n)

/-- The text declares a type and a length. -/
def Declares (text : List Char) (type : ColumnType) (length : Option UInt32) : Prop :=
  ∃ before word tail after : List Char, text = before ++ (word ++ (tail ++ after)) ∧
    before.all isSpacing = true ∧ Names word type ∧ WritesLength tail length ∧
    after.all isSpacing = true

/-- The type in capitals, and the length in parentheses. -/
def declaration (type : ColumnType) (length : Option UInt32) : String :=
  type.display ++ length.elim "" fun n => "(" ++ toString n.toNat ++ ")"

/-! ### Words -/

theorem mem_words_iff (word : String) (type : ColumnType) :
    (word, type) ∈ words ↔ word ∈ type.keywords := by
  cases type <;> simp [words, keywords]

theorem words_ordered : words.Pairwise fun x y => ¬x.1.toList <+: y.1.toList := by
  decide

theorem eq_of_mem_words : ∀ x ∈ words, ∀ y ∈ words, x.1 = y.1 → x.2 = y.2 := by
  decide

theorem isLower_of_mem_words : ∀ x ∈ words, ∀ c ∈ x.1.toList, c.isLower = true := by
  have hall : words.all (fun x => x.1.toList.all Char.isLower) = true := by decide
  simpa only [List.all_eq_true] using hall

theorem isAlpha_of_toLower (c : Char) (h : c.toLower.isLower = true) : c.isAlpha = true := by
  refine (Bool.or_eq_true _ _).mpr ?_
  by_cases hupper : c.isUpper = true
  · exact Or.inl hupper
  · have hsame : c.toLower = c := dif_neg fun hrange => hupper (decide_eq_true hrange)
    exact Or.inr (hsame ▸ h)

theorem not_isAlpha_of_isSpacing (c : Char) (h : isSpacing c = true) : c.isAlpha = false :=
  forall_isSpacing (Char.isAlpha · = false) (by decide) c h

theorem stops_word (word rest : List Char) (type : ColumnType) (h : Names word type) :
    Stops isSpacing (word ++ rest) := by
  obtain ⟨keyword, hkeyword, hword⟩ := h
  have hmem := (mem_words_iff keyword type).mpr hkeyword
  cases word with
  | nil =>
    have hne : ∀ x ∈ words, x.1.toList ≠ [] := by decide
    exact absurd hword.symm (hne _ hmem)
  | cons c cs =>
    have hlower := isLower_of_mem_words _ hmem c.toLower (by simp [← hword])
    exact stops_isSpacing_cons Char.isAlpha c _ not_isAlpha_of_isSpacing
      (isAlpha_of_toLower c hlower)

theorem dropWord?_eq_some (word cs rest : List Char) :
    dropWord? word cs = some rest ↔ ∃ front, cs = front ++ rest ∧ front.map Char.toLower = word := by
  unfold dropWord?
  constructor
  · intro h
    split at h
    · next hfront =>
      refine ⟨cs.take word.length, ?_, hfront⟩
      rw [← Option.some.inj h, List.take_append_drop]
    · cases h
  · rintro ⟨front, rfl, rfl⟩
    rw [List.length_map, List.take_left, List.drop_left, if_pos rfl]

theorem dropWord?_eq_none (word cs : List Char) :
    dropWord? word cs = none ↔ ¬word <+: cs.map Char.toLower := by
  rw [List.prefix_iff_eq_take, ← List.map_take, dropWord?, eq_comm (a := word)]
  split <;> simp_all

/-- The word that is read is the first of the table that fits. -/
theorem takeWord_first (cs rest : List Char) (type : ColumnType)
    (h : takeWord cs = .ok (type, rest)) :
    ∃ before keyword after, words = before ++ (keyword, type) :: after ∧
      dropWord? keyword.toList cs = some rest ∧
      ∀ x ∈ before, ¬x.1.toList <+: cs.map Char.toLower := by
  unfold takeWord at h
  split at h
  · next found hfound =>
    obtain rfl := Except.ok.inj h
    obtain ⟨before, ⟨keyword, type'⟩, after, hwords, hfits, hbefore⟩ :=
      List.findSome?_eq_some_iff.mp hfound
    obtain ⟨rest', hdrop, he⟩ := Option.map_eq_some_iff.mp hfits
    obtain ⟨rfl, rfl⟩ := Prod.mk.inj he
    refine ⟨before, keyword, after, hwords, hdrop, fun x hx => ?_⟩
    exact (dropWord?_eq_none ..).mp (Option.map_eq_none_iff.mp (hbefore x hx))
  · cases h

theorem exists_takeWord (cs rest : List Char) (keyword : String) (type : ColumnType)
    (hmem : (keyword, type) ∈ words) (hdrop : dropWord? keyword.toList cs = some rest) :
    ∃ taken, takeWord cs = .ok taken := by
  unfold takeWord
  split
  · exact ⟨_, rfl⟩
  · next hnone =>
    have hkept := List.findSome?_eq_none_iff.mp hnone _ hmem
    simp [hdrop] at hkept

theorem takeWord_sound (cs rest : List Char) (type : ColumnType)
    (h : takeWord cs = .ok (type, rest)) : ∃ word, Names word type ∧ cs = word ++ rest := by
  obtain ⟨before, keyword, after, hwords, hdrop, _⟩ := takeWord_first cs rest type h
  have hmem : (keyword, type) ∈ words := by simp [hwords]
  obtain ⟨front, hcs, hfront⟩ := (dropWord?_eq_some _ _ _).mp hdrop
  exact ⟨front, ⟨keyword, (mem_words_iff keyword type).mp hmem, hfront⟩, hcs⟩

/-- A longer word does not fit where a word is followed by no letter. -/
theorem eq_of_fits (keyword : List Char) (rest : List Char) (x : String × ColumnType)
    (hx : x ∈ words) (hlonger : keyword <+: x.1.toList)
    (hfits : x.1.toList <+: keyword ++ rest.map Char.toLower) (hrest : Stops Char.isAlpha rest) :
    x.1.toList = keyword := by
  obtain ⟨extra, hextra⟩ := hlonger
  rw [← hextra, List.prefix_append_right_inj] at hfits
  cases extra with
  | nil => rw [← hextra, List.append_nil]
  | cons e es =>
    cases rest with
    | nil => simp at hfits
    | cons c cs =>
      rw [List.map_cons, List.cons_prefix_cons] at hfits
      have hlower := isLower_of_mem_words x hx e (hextra ▸ by simp)
      rw [hfits.1] at hlower
      have hletter := isAlpha_of_toLower c hlower
      rw [(stops_cons ..).mp hrest] at hletter
      cases hletter

/-- Of the words that fit the longest one is read. -/
theorem takeWord_complete (word rest : List Char) (type : ColumnType) (h : Names word type)
    (hrest : Stops Char.isAlpha rest) : takeWord (word ++ rest) = .ok (type, rest) := by
  obtain ⟨keyword, hkeyword, hword⟩ := h
  have hmem : (keyword, type) ∈ words := (mem_words_iff keyword type).mpr hkeyword
  have hdrop : dropWord? keyword.toList (word ++ rest) = some rest :=
    (dropWord?_eq_some ..).mpr ⟨word, rfl, hword⟩
  have hlower : (word ++ rest).map Char.toLower = keyword.toList ++ rest.map Char.toLower := by
    rw [List.map_append, hword]
  obtain ⟨⟨type', rest'⟩, htake⟩ := exists_takeWord _ rest keyword type hmem hdrop
  obtain ⟨before, found, after, hwords, hdrop', hbefore⟩ := takeWord_first _ rest' type' htake
  have hfound : (found, type') ∈ words := by simp [hwords]
  have hfits : found.toList <+: (word ++ rest).map Char.toLower := by
    by_contra hnone
    rw [(dropWord?_eq_none ..).mpr hnone] at hdrop'
    cases hdrop'
  have hlonger := prefix_of_first (fun x : String × ColumnType => x.1.toList) before after
    (found, type') _ hfits hbefore (hwords ▸ words_ordered) (keyword, type) (hwords ▸ hmem)
    ⟨_, hlower.symm⟩
  have hsame : found.toList = keyword.toList :=
    eq_of_fits keyword.toList rest (found, type') hfound hlonger (hlower ▸ hfits) hrest
  obtain rfl := String.toList_inj.mp hsame
  obtain rfl : type' = type := eq_of_mem_words _ hfound _ hmem rfl
  rw [htake, Option.some.inj (hdrop'.symm.trans hdrop)]

/-! ### Lengths -/

theorem not_isDigit_of_isSpacing (c : Char) (h : isSpacing c = true) : c.isDigit = false :=
  forall_isSpacing (Char.isDigit · = false) (by decide) c h

theorem takeLength?_sound (cs rest : List Char) (n : UInt32)
    (h : takeLength? cs = some (n, rest)) : ∃ tail, cs = tail ++ rest ∧ WritesLength tail (some n) := by
  unfold takeLength? at h
  split at h
  · next inner hopen =>
    obtain ⟨before, hbefore, hcs⟩ := exists_spacing cs
    obtain ⟨inside, hinside, hinner⟩ := exists_spacing inner
    have hdigits := takeDigits_append (skipSpacing inner)
    have hall : (takeDigits (skipSpacing inner)).1.all Char.isDigit = true := List.all_takeWhile
    generalize takeDigits (skipSpacing inner) = taken at h hdigits hall
    obtain ⟨digits, closing⟩ := taken
    obtain ⟨behind, hbehind, hclosing⟩ := exists_spacing closing
    dsimp only at h hdigits hall
    split at h
    · next rest' hclose =>
      split at h
      · cases h
      · next hbound =>
        obtain ⟨rfl, rfl⟩ := Prod.mk.inj (Option.some.inj h)
        rw [not_or, List.isEmpty_iff] at hbound
        have hlt : digitsValue digits < 2 ^ 32 := Nat.lt_of_not_le hbound.2
        refine ⟨_, ?_, .given hbefore hinside hbehind hbound.1 hall (by omega)
          (UInt32.toNat_ofNat_of_lt' hlt)⟩
        rw [← hcs, hopen, ← hinner, ← hdigits, ← hclosing, hclose]
        simp
    · cases h
  · cases h

theorem takeLength?_complete (tail rest : List Char) (n : UInt32) (h : WritesLength tail (some n)) :
    takeLength? (tail ++ rest) = some (n, rest) := by
  cases h with
  | @given before inside digits behind _ hbefore hinside hbehind hne hdigits hbound hn =>
    have hclose : skipSpacing (behind ++ ')' :: rest) = ')' :: rest :=
      skipSpacing_of_stops behind _ hbehind ((stops_cons ..).mpr rfl)
    have hstops : StopsDigits (behind ++ ')' :: rest) :=
      stops_spacing_append Char.isDigit behind _ not_isDigit_of_isSpacing hbehind
        ((stops_cons ..).mpr rfl)
    have htake : takeDigits (digits ++ (behind ++ ')' :: rest)) = (digits, behind ++ ')' :: rest) :=
      takeDigits_of_stops digits _ (List.all_eq_true.mp hdigits) hstops
    have hinner : skipSpacing (inside ++ (digits ++ (behind ++ ')' :: rest)))
        = digits ++ (behind ++ ')' :: rest) := by
      refine skipSpacing_of_stops inside _ hinside ?_
      cases digits with
      | nil => exact absurd rfl hne
      | cons c cs =>
        rw [List.all_cons, Bool.and_eq_true] at hdigits
        exact stops_isSpacing_cons Char.isDigit c _ not_isDigit_of_isSpacing hdigits.1
    have hopen : skipSpacing (before ++ '(' :: (inside ++ (digits ++ (behind ++ ')' :: rest))))
        = '(' :: (inside ++ (digits ++ (behind ++ ')' :: rest))) :=
      skipSpacing_of_stops before _ hbefore ((stops_cons ..).mpr rfl)
    have hbound' : ¬(digits.isEmpty = true ∨ Nat.pow 2 32 ≤ digitsValue digits) := by
      rw [not_or, List.isEmpty_iff]
      exact ⟨hne, Nat.not_le.mpr (Nat.lt_succ_of_le hbound)⟩
    simp only [List.append_assoc, List.cons_append, List.nil_append, takeLength?, hopen, hinner,
      htake, hclose]
    rw [if_neg hbound', ← hn, UInt32.ofNat_toNat]

/-! ### Whole texts -/

theorem stops_letters (tail after : List Char) (length : Option UInt32)
    (htail : WritesLength tail length) (hafter : after.all isSpacing = true) :
    Stops Char.isAlpha (tail ++ after) := by
  cases htail with
  | absent =>
    have hstops := stops_spacing_append Char.isAlpha after [] not_isAlpha_of_isSpacing hafter (stops_nil _)
    rwa [List.append_nil] at hstops
  | given hbefore =>
    rw [List.append_assoc]
    exact stops_spacing_append Char.isAlpha _ _ not_isAlpha_of_isSpacing hbefore
      ((stops_cons ..).mpr rfl)

theorem takeLength?_of_spacing (cs : List Char) (h : cs.all isSpacing = true) :
    takeLength? cs = none := by
  rw [takeLength?, (skipSpacing_eq_nil_iff cs).mpr h]

theorem scan_eq_ok (cs : List Char) (type : ColumnType) (length : Option UInt32) :
    scan cs = .ok (type, length) ↔ Declares cs type length := by
  constructor
  · intro h
    rw [scan, bind_eq_ok] at h
    obtain ⟨⟨type', rest⟩, hword, h⟩ := h
    obtain ⟨before, hbefore, hcs⟩ := exists_spacing cs
    obtain ⟨word, hnames, hrest⟩ := takeWord_sound _ rest type' hword
    rw [hrest] at hcs
    dsimp only at h
    split at h
    · next n after hlength =>
      simp only [bind_eq_ok, pure_eq_ok, expectEnd_eq_ok] at h
      obtain ⟨_, hafter, he⟩ := h
      obtain ⟨rfl, rfl⟩ := Prod.mk.inj he
      obtain ⟨tail, rfl, htail⟩ := takeLength?_sound rest after n hlength
      exact ⟨before, word, tail, after, hcs.symm, hbefore, hnames, htail, hafter⟩
    · simp only [bind_eq_ok, pure_eq_ok, expectEnd_eq_ok] at h
      obtain ⟨_, hafter, he⟩ := h
      obtain ⟨rfl, rfl⟩ := Prod.mk.inj he
      exact ⟨before, word, [], rest, hcs.symm, hbefore, hnames, .absent, hafter⟩
  · rintro ⟨before, word, tail, after, rfl, hbefore, hnames, htail, hafter⟩
    have hstops := stops_letters tail after length htail hafter
    have hfront : skipSpacing (before ++ (word ++ (tail ++ after))) = word ++ (tail ++ after) :=
      skipSpacing_of_stops before _ hbefore (stops_word word _ type hnames)
    have hend : expectEnd after = .ok () := (expectEnd_eq_ok after ()).mpr hafter
    rw [scan, hfront, bind_eq_ok]
    refine ⟨_, takeWord_complete word _ type hnames hstops, ?_⟩
    dsimp only
    cases length with
    | none =>
      cases htail
      rw [List.nil_append, takeLength?_of_spacing after hafter]
      dsimp only
      rw [hend]
      rfl
    | some n =>
      rw [takeLength?_complete tail after n htail]
      dsimp only
      rw [hend]
      rfl

/-! ### Declarations -/

theorem names_display (type : ColumnType) : Names type.display.toList type := by
  cases type <;> exact ⟨_, List.mem_cons_self, by decide⟩

theorem writesLength_some (n : UInt32) :
    WritesLength ('(' :: (Nat.toDigits 10 n.toNat ++ [')'])) (some n) := by
  have hvalue : digitsValue (Nat.toDigits 10 n.toNat) = n.toNat := by
    rw [digitsValue_eq, Nat.ofDigitChars_toDigits (by decide) (by decide)]
  have hbound : digitsValue (Nat.toDigits 10 n.toNat) ≤ 4294967295 := by
    rw [hvalue]
    exact Nat.le_of_lt_succ n.toNat_lt
  exact @WritesLength.given [] [] _ [] n rfl rfl rfl Nat.toDigits_ne_nil
    (List.all_eq_true.mpr (isDigit_of_mem_toDigits n.toNat)) hbound hvalue.symm

theorem declares_declaration (type : ColumnType) (length : Option UInt32) :
    Declares (declaration type length).toList type length := by
  cases length with
  | none =>
    refine ⟨[], type.display.toList, [], [], ?_, rfl, names_display type, .absent, rfl⟩
    simp [declaration]
  | some n =>
    refine ⟨[], type.display.toList, _, [], ?_, rfl, names_display type, writesLength_some n, rfl⟩
    simp [declaration]

/--
A text is read as a type and a length exactly where it declares them: as a word for the type in any
case and, if there is a length, this number below `2 ^ 32` in parentheses, with spacing before and
behind each part. So the type in capitals and its length in parentheses are read back.
-/
theorem parse_declares :
    (∀ text type length, parse text = .ok (type, length) ↔ Declares text.toList type length) ∧
    ∀ type length, parse (declaration type length) = .ok (type, length) := by
  have hparse : ∀ text type length,
      parse text = .ok (type, length) ↔ Declares text.toList type length := by
    intro text type length
    rw [parse, atPosition, mapError_eq_ok, scan_eq_ok]
  exact ⟨hparse, fun type length => (hparse _ type length).mpr (declares_declaration type length)⟩

example : (parse "\tDateTime ( 007) ").toOption = some (.datetime, some 7) := by decide +kernel

end ColumnType

end BoundSql
