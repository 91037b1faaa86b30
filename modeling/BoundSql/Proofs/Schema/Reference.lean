import BoundSql.Proofs.Json.Fields
import BoundSql.Proofs.Text.Pieces

/-!
# Texts of references

The text of a reference is two plain names with a point between them and spacing around. Main
statement: these texts and no others are read, each as the names that it writes, so that a reference
is read back from its own text just if its names are plain. A text that is not read is refused at the
place behind the longest beginning that it shares with the text of some reference.
-/

namespace BoundSql

/-! ### Plain names -/

/-- An ASCII letter or digit, or an underscore. -/
def IsNameChar (c : Char) : Prop :=
  ('A' ≤ c ∧ c ≤ 'Z') ∨ ('a' ≤ c ∧ c ≤ 'z') ∨ ('0' ≤ c ∧ c ≤ '9') ∨ c = '_'

/-- ASCII letters, digits and underscores, at least one of them, and no digit in front. -/
def PlainName (name : List Char) : Prop :=
  name ≠ [] ∧ (∀ c ∈ name, IsNameChar c) ∧ ∀ c ∈ name.head?, ¬('0' ≤ c ∧ c ≤ '9')

theorem isUpper_iff (c : Char) : c.isUpper = true ↔ 'A' ≤ c ∧ c ≤ 'Z' :=
  decide_eq_true_iff

theorem isLower_iff (c : Char) : c.isLower = true ↔ 'a' ≤ c ∧ c ≤ 'z' :=
  Bool.and_eq_true_iff.trans (and_congr decide_eq_true_iff decide_eq_true_iff)

theorem isDigit_iff (c : Char) : c.isDigit = true ↔ '0' ≤ c ∧ c ≤ '9' :=
  Bool.and_eq_true_iff.trans (and_congr decide_eq_true_iff decide_eq_true_iff)

theorem isAlpha_iff (c : Char) :
    c.isAlpha = true ↔ ('A' ≤ c ∧ c ≤ 'Z') ∨ ('a' ≤ c ∧ c ≤ 'z') :=
  Bool.or_eq_true_iff.trans (or_congr (isUpper_iff c) (isLower_iff c))

theorem isIdentifierPart_iff (c : Char) : isIdentifierPart c = true ↔ IsNameChar c := by
  simp only [isIdentifierPart, Char.isAlphanum, Bool.or_eq_true, beq_iff_eq, isAlpha_iff, isDigit_iff,
    or_assoc, IsNameChar]

theorem isIdentifierStart_iff (c : Char) :
    isIdentifierStart c = true ↔ IsNameChar c ∧ ¬('0' ≤ c ∧ c ≤ '9') := by
  have hpart : isIdentifierPart c = true ↔ isIdentifierStart c = true ∨ c.isDigit = true := by
    simp only [isIdentifierPart, isIdentifierStart, Char.isAlphanum, Bool.or_eq_true]
    exact or_right_comm
  have hapart : isIdentifierStart c = true → ¬('0' ≤ c ∧ c ≤ '9') := by
    simp only [isIdentifierStart, Bool.or_eq_true, beq_iff_eq, isAlpha_iff]
    rintro ((⟨hlow, _⟩ | ⟨hlow, _⟩) | rfl) ⟨_, hhigh⟩
    · exact absurd (Char.le_trans hlow hhigh) (by decide)
    · exact absurd (Char.le_trans hlow hhigh) (by decide)
    · exact absurd hhigh (by decide)
  rw [← isIdentifierPart_iff, hpart, isDigit_iff]
  constructor
  · exact fun h => ⟨Or.inl h, hapart h⟩
  · rintro ⟨h, hnot⟩
    exact h.resolve_right hnot

theorem isIdentifierText_iff (name : List Char) : isIdentifierText name = true ↔ PlainName name := by
  cases name with
  | nil => exact iff_of_false Bool.false_ne_true fun h => h.1 rfl
  | cons c cs =>
    rw [isIdentifierText, Bool.and_eq_true, isIdentifierStart_iff, List.all_eq_true]
    simp only [isIdentifierPart_iff, PlainName, List.mem_cons, forall_eq_or_imp, List.head?_cons,
      Option.mem_some_iff, forall_eq', ne_eq, reduceCtorEq, not_false_eq_true, true_and]
    constructor
    · rintro ⟨⟨hc, hdigit⟩, hcs⟩
      exact ⟨⟨hc, hcs⟩, hdigit⟩
    · rintro ⟨⟨hc, hcs⟩, hdigit⟩
      exact ⟨⟨hc, hdigit⟩, hcs⟩

theorem isIdentifier_iff (name : String) : isIdentifier name = true ↔ PlainName name.toList :=
  isIdentifierText_iff name.toList

/-! ### Places in a text -/

theorem foldl_utf8Size (cs : List Char) (n : Nat) :
    cs.foldl (fun n c => n + c.utf8Size) n = n + byteLength cs := by
  induction cs generalizing n with
  | nil => rfl
  | cons c cs ih =>
    rw [byteLength, List.foldl_cons, List.foldl_cons, ih, ih (0 + c.utf8Size)]
    omega

theorem byteLength_append (cs ds : List Char) :
    byteLength (cs ++ ds) = byteLength cs + byteLength ds := by
  rw [byteLength, List.foldl_append, foldl_utf8Size]
  rfl

theorem byteLength_ofList (cs : List Char) : (String.ofList cs).utf8ByteSize = byteLength cs := by
  induction cs with
  | nil => rfl
  | cons c cs ih =>
    have hsplit : String.ofList (c :: cs) = String.singleton c ++ String.ofList cs := by
      rw [String.singleton_eq_ofList, ← String.ofList_append, List.singleton_append]
    have hfirst : byteLength (c :: cs) = byteLength [c] + byteLength cs :=
      byteLength_append [c] cs
    have hone : byteLength [c] = c.utf8Size := Nat.zero_add _
    rw [hsplit, String.utf8ByteSize_append, String.utf8ByteSize_singleton, ih, hfirst, hone]

/-- A reader that fails within the text does so behind what stands before its rest. -/
theorem atPosition_eq_error {α : Type} (form : TextForm) (front rest : List Char)
    (result : Except (List Char) α) (h : result = .error rest) :
    atPosition form (String.ofList (front ++ rest)) result
      = .error (.malformed form (byteLength front) (String.ofList (front ++ rest))) := by
  have hplace : byteLength (front ++ rest) - byteLength rest = byteLength front := by
    rw [byteLength_append, Nat.add_sub_cancel]
  rw [h, atPosition, String.toList_ofList, Except.mapError, hplace]

namespace Reference

/-! ### What a text writes -/

/-- Two plain names with a point between them, and spacing around. -/
def Writes (text : List Char) (r : Reference) : Prop :=
  ∃ before after : List Char,
    text = before ++ (r.table.toList ++ '.' :: (r.column.toList ++ after)) ∧
    before.all isSpacing = true ∧ after.all isSpacing = true ∧
    PlainName r.table.toList ∧ PlainName r.column.toList

theorem stops_point (rest : List Char) : Stops isIdentifierPart ('.' :: rest) :=
  (stops_cons ..).mpr rfl

theorem stops_spacing (after : List Char) (h : after.all isSpacing = true) :
    Stops isIdentifierPart after := by
  have hstops := stops_spacing_append isIdentifierPart after []
    (forall_isSpacing (isIdentifierPart · = false) (by decide)) h (stops_nil _)
  rwa [List.append_nil] at hstops

theorem scan_eq_ok (cs : List Char) (r : Reference) : scan cs = .ok r ↔ Writes cs r := by
  obtain ⟨table, column⟩ := r
  simp only [scan, bind_eq_ok, pure_eq_ok, Prod.exists, takeIdentifier_eq_ok, expectChar_eq_ok,
    expectEnd_eq_ok, mk.injEq]
  constructor
  · rintro ⟨t, _, ⟨ht, hcs, _⟩, _, rfl, c, after, ⟨hc, rfl, _⟩, _, hafter, rfl, rfl⟩
    obtain ⟨before, hbefore, htext⟩ := exists_spacing cs
    refine ⟨before, after, ?_, hbefore, hafter, ?_, ?_⟩
    · rw [String.toList_ofList, String.toList_ofList, ← hcs, htext]
    · rwa [String.toList_ofList, ← isIdentifierText_iff]
    · rwa [String.toList_ofList, ← isIdentifierText_iff]
  · rintro ⟨before, after, rfl, hbefore, hafter, ht, hc⟩
    rw [← isIdentifierText_iff] at ht hc
    have hfront := skipSpacing_of_stops before _ hbefore
      (stops_identifier table.toList ('.' :: (column.toList ++ after)) ht)
    exact ⟨_, _, ⟨ht, hfront, stops_point _⟩, _, rfl, _, after, ⟨hc, rfl, stops_spacing after hafter⟩,
      (), hafter, String.ofList_toList, String.ofList_toList⟩

/-! ### Where a text breaks off -/

/-- What stands before the place where the text stops to be one of a reference, and what behind. -/
inductive Breaks : List Char → List Char → Prop
  | table {before rest : List Char} : before.all isSpacing = true → Stops isSpacing rest →
      Stops isIdentifierStart rest → Breaks before rest
  | point {before table rest : List Char} : before.all isSpacing = true → PlainName table →
      Stops isIdentifierPart rest → Stops (· == '.') rest → Breaks (before ++ table) rest
  | column {before table rest : List Char} : before.all isSpacing = true → PlainName table →
      Stops isIdentifierStart rest → Breaks (before ++ (table ++ ['.'])) rest
  | after {before table column after rest : List Char} : before.all isSpacing = true →
      PlainName table → PlainName column → after.all isSpacing = true →
      Stops isIdentifierPart (after ++ rest) → Stops isSpacing rest → rest ≠ [] →
      Breaks (before ++ (table ++ '.' :: (column ++ after))) rest

/-- The reader fails at a place where the text breaks off. -/
theorem scan_error (cs rest : List Char) (h : scan cs = .error rest) :
    ∃ front, cs = front ++ rest ∧ Breaks front rest := by
  obtain ⟨before, hbefore, htext⟩ := exists_spacing cs
  have hskip : Stops isSpacing (skipSpacing cs) := stops_dropWhile isSpacing cs
  rw [scan, bind_eq_error] at h
  rcases h with h | ⟨⟨table, behind⟩, htable, h⟩
  · obtain ⟨hrest, hstart⟩ := (takeIdentifier_eq_error ..).mp h
    rw [hrest] at htext hskip
    exact ⟨before, htext.symm, .table hbefore hskip hstart⟩
  obtain ⟨hname, hfront, hpart⟩ := (takeIdentifier_eq_ok ..).mp htable
  rw [isIdentifierText_iff] at hname
  rw [hfront] at htext
  rw [bind_eq_error] at h
  rcases h with h | ⟨behind', hpoint, h⟩
  · obtain ⟨rfl, hpoint⟩ := (expectChar_eq_error ..).mp h
    exact ⟨before ++ table, by rw [← htext, List.append_assoc], .point hbefore hname hpart hpoint⟩
  obtain rfl := (expectChar_eq_ok ..).mp hpoint
  rw [bind_eq_error] at h
  rcases h with h | ⟨⟨column, tail⟩, hcolumn, h⟩
  · obtain ⟨rfl, hstart⟩ := (takeIdentifier_eq_error ..).mp h
    exact ⟨before ++ (table ++ ['.']), by simp [← htext], .column hbefore hname hstart⟩
  obtain ⟨hname', rfl, hpart'⟩ := (takeIdentifier_eq_ok ..).mp hcolumn
  rw [isIdentifierText_iff] at hname'
  rw [bind_eq_error] at h
  rcases h with h | ⟨_, _, h⟩
  · obtain ⟨hend, hne⟩ := (expectEnd_eq_error ..).mp h
    obtain ⟨after, hafter, htail⟩ := exists_spacing tail
    have hskip' : Stops isSpacing (skipSpacing tail) := stops_dropWhile isSpacing tail
    rw [hend] at htail hskip'
    rw [← htail] at htext hpart'
    exact ⟨before ++ (table ++ '.' :: (column ++ after)), by simp [← htext],
      .after hbefore hname hname' hafter hpart' hskip' hne⟩
  · cases h

theorem scan_of_breaks (front rest : List Char) (h : Breaks front rest) :
    scan (front ++ rest) = .error rest := by
  have htake : ∀ name behind : List Char, PlainName name → Stops isIdentifierPart behind →
      takeIdentifier (name ++ behind) = .ok (name, behind) := fun name behind hname hstops =>
    (takeIdentifier_eq_ok ..).mpr ⟨(isIdentifierText_iff name).mpr hname, rfl, hstops⟩
  have hskip : ∀ before table behind : List Char, before.all isSpacing = true → PlainName table →
      skipSpacing (before ++ (table ++ behind)) = table ++ behind :=
    fun before table behind hbefore hname => skipSpacing_of_stops before _ hbefore
      (stops_identifier table behind ((isIdentifierText_iff table).mpr hname))
  -- Each step before the place succeeds, and the one at the place fails.
  cases h with
  | table hbefore hspacing hstart =>
    rw [scan, skipSpacing_of_stops _ _ hbefore hspacing, bind_eq_error]
    exact Or.inl ((takeIdentifier_eq_error ..).mpr ⟨rfl, hstart⟩)
  | point hbefore hname hpart hpoint =>
    rw [List.append_assoc, scan, hskip _ _ _ hbefore hname, bind_eq_error]
    refine Or.inr ⟨_, htake _ _ hname hpart, ?_⟩
    rw [bind_eq_error]
    exact Or.inl ((expectChar_eq_error ..).mpr ⟨rfl, hpoint⟩)
  | column hbefore hname hstart =>
    rw [List.append_assoc, List.append_assoc, scan, hskip _ _ _ hbefore hname, bind_eq_error]
    refine Or.inr ⟨_, htake _ _ hname (stops_point _), ?_⟩
    rw [bind_eq_error]
    refine Or.inr ⟨_, (expectChar_eq_ok ..).mpr rfl, ?_⟩
    rw [bind_eq_error]
    exact Or.inl ((takeIdentifier_eq_error ..).mpr ⟨rfl, hstart⟩)
  | @after before table column after rest hbefore hname hname' hafter hpart hspacing hne =>
    rw [List.append_assoc, List.append_assoc, List.cons_append, List.append_assoc, scan,
      hskip _ _ _ hbefore hname, bind_eq_error]
    refine Or.inr ⟨_, htake _ _ hname (stops_point _), ?_⟩
    rw [bind_eq_error]
    refine Or.inr ⟨_, (expectChar_eq_ok ..).mpr rfl, ?_⟩
    rw [bind_eq_error]
    refine Or.inr ⟨_, htake _ _ hname' hpart, ?_⟩
    rw [bind_eq_error]
    exact Or.inl ((expectEnd_eq_error ..).mpr ⟨skipSpacing_of_stops after rest hafter hspacing, hne⟩)

/-- Whether a text breaks off is seen from the next character. -/
theorem breaks_congr (front cs more : List Char) (c : Char) (h : Breaks front (c :: cs)) :
    Breaks front (c :: more) := by
  have hnext : ∀ p : Char → Bool, Stops p (c :: cs) → Stops p (c :: more) := fun p hp =>
    (stops_cons ..).mpr ((stops_cons ..).mp hp)
  cases h with
  | table hbefore hspacing hstart => exact .table hbefore (hnext _ hspacing) (hnext _ hstart)
  | point hbefore hname hpart hpoint =>
    exact .point hbefore hname (hnext _ hpart) (hnext _ hpoint)
  | column hbefore hname hstart => exact .column hbefore hname (hnext _ hstart)
  | @after before table column after _ hbefore hname hname' hafter hpart hspacing hne =>
    refine .after hbefore hname hname' hafter ?_ (hnext _ hspacing) (List.cons_ne_nil _ _)
    cases after with
    | nil => exact hnext _ hpart
    | cons d after => exact (stops_cons ..).mpr ((stops_cons ..).mp hpart)

/-- Some text that writes a reference begins so. -/
def Begins (front : List Char) : Prop := ∃ (rest : List Char) (r : Reference), Writes (front ++ rest) r

theorem plainName_underscore : PlainName ['_'] := (isIdentifierText_iff ['_']).mp rfl

theorem begins_of_breaks (front rest : List Char) (h : Breaks front rest) : Begins front := by
  have hwrites : ∀ before table column after : List Char, before.all isSpacing = true →
      PlainName table → PlainName column → after.all isSpacing = true →
        ∃ r, Writes (before ++ (table ++ '.' :: (column ++ after))) r := by
    intro before table column after hbefore hname hname' hafter
    refine ⟨⟨String.ofList table, String.ofList column⟩, before, after, ?_, hbefore, hafter, ?_, ?_⟩
    · simp only [String.toList_ofList]
    · rwa [String.toList_ofList]
    · rwa [String.toList_ofList]
  -- What is missing behind the place is made of the shortest names.
  have hshort := plainName_underscore
  cases h with
  | table hbefore _ _ => exact ⟨['_', '.', '_'], hwrites _ ['_'] ['_'] [] hbefore hshort hshort rfl⟩
  | point hbefore hname _ _ =>
    refine ⟨['.', '_'], ?_⟩
    rw [List.append_assoc]
    exact hwrites _ _ ['_'] [] hbefore hname hshort rfl
  | column hbefore hname _ =>
    refine ⟨['_'], ?_⟩
    rw [List.append_assoc, List.append_assoc]
    exact hwrites _ _ ['_'] [] hbefore hname hshort rfl
  | after hbefore hname hname' hafter _ _ _ =>
    refine ⟨[], ?_⟩
    rw [List.append_nil]
    exact hwrites _ _ _ _ hbefore hname hname' hafter

/-- A text breaks off behind the longest of its beginnings with which a reference begins. -/
theorem longest_of_breaks (front rest longer : List Char) (h : Breaks front rest)
    (hlonger : longer <+: front ++ rest) (hbegins : Begins longer) : longer <+: front := by
  rcases List.prefix_or_prefix_of_prefix hlonger (List.prefix_append front rest) with hle | hgt
  · exact hle
  · obtain ⟨extra, rfl⟩ := hgt
    rw [List.prefix_append_right_inj] at hlonger
    cases extra with
    | nil => simp
    | cons c extra =>
      obtain ⟨cs, rfl⟩ := hlonger
      obtain ⟨more, r, hwrites⟩ := hbegins
      have hok := (scan_eq_ok _ _).mpr hwrites
      rw [List.append_assoc, List.cons_append,
        scan_of_breaks front _ (breaks_congr front _ (extra ++ more) c h)] at hok
      cases hok

/-! ### Reading references -/

theorem parse_eq_ok (text : String) (r : Reference) :
    parse text = .ok r ↔ Writes text.toList r := by
  rw [parse, atPosition, mapError_eq_ok, scan_eq_ok]

theorem writes_display (r : Reference) :
    Writes r.display.toList r ↔ PlainName r.table.toList ∧ PlainName r.column.toList := by
  refine ⟨fun ⟨_, _, _, _, _, hnames⟩ => hnames, fun ⟨hname, hname'⟩ => ?_⟩
  exact ⟨[], [], by simp [display], rfl, rfl, hname, hname'⟩

theorem parse_error (text : String) (cause : Error) (h : parse text = .error cause) :
    ∃ front rest : String, text = front ++ rest ∧
      cause = .malformed .reference front.utf8ByteSize text ∧ Begins front.toList ∧
      ∀ longer : List Char, longer <+: text.toList → Begins longer → longer <+: front.toList := by
  cases hscan : scan text.toList with
  | ok r =>
    rw [parse, hscan] at h
    cases h
  | error rest =>
    obtain ⟨front, htext, hbreaks⟩ := scan_error _ _ hscan
    have hsplit : text = String.ofList (front ++ rest) := by rw [← htext, String.ofList_toList]
    have hplace := atPosition_eq_error .reference front rest _ hscan
    rw [← hsplit, ← parse, h] at hplace
    refine ⟨String.ofList front, String.ofList rest, ?_, ?_, ?_, fun longer hlonger hbegins => ?_⟩
    · rw [hsplit, String.ofList_append]
    · rw [byteLength_ofList]
      exact Except.error.inj hplace
    · rw [String.toList_ofList]
      exact begins_of_breaks front rest hbreaks
    · rw [String.toList_ofList]
      exact longest_of_breaks front rest longer hbreaks (htext ▸ hlonger) hbegins

/--
A text is read as a reference exactly where it is two plain names with a point between them and
spacing around, and the plain names are what counts as an identifier. So the text of a reference is
read back as that reference just if both names are plain. Where a text is refused, the position is
the number of bytes of its longest beginning with which the text of some reference begins.
-/
theorem parse_refers :
    (∀ name : String, isIdentifier name = true ↔ PlainName name.toList) ∧
    (∀ (text table column : String), parse text = .ok ⟨table, column⟩ ↔
      ∃ before after : List Char,
        text.toList = before ++ (table.toList ++ '.' :: (column.toList ++ after)) ∧
        before.all isSpacing = true ∧ after.all isSpacing = true ∧
        PlainName table.toList ∧ PlainName column.toList) ∧
    (∀ r : Reference, parse r.display = .ok r ↔
      isIdentifier r.table = true ∧ isIdentifier r.column = true) ∧
    ∀ (text : String) (cause : Error), parse text = .error cause →
      ∃ front rest : String, text = front ++ rest ∧
        cause = .malformed .reference front.utf8ByteSize text ∧
        front.utf8ByteSize ≤ text.utf8ByteSize ∧ Begins front.toList ∧
        ∀ longer : List Char, longer <+: text.toList → Begins longer → longer <+: front.toList := by
  refine ⟨isIdentifier_iff, fun text table column => parse_eq_ok text _, fun r => ?_,
    fun text cause h => ?_⟩
  · rw [parse_eq_ok, writes_display, isIdentifier_iff, isIdentifier_iff]
  · obtain ⟨front, rest, hsplit, hcause, hbegins, hlongest⟩ := parse_error text cause h
    refine ⟨front, rest, hsplit, hcause, ?_, hbegins, hlongest⟩
    rw [hsplit, String.utf8ByteSize_append]
    exact Nat.le_add_right _ _

/-- Spacing before a name gets lost, and a letter that is not ASCII cuts a name off. -/
theorem parse_refers_players :
    parse (display ⟨"players_2", "id"⟩) = .ok ⟨"players_2", "id"⟩ ∧
      parse (display ⟨"\tplayers", "id"⟩) = .ok ⟨"players", "id"⟩ ∧
      parse (display ⟨"\tplayers", "id"⟩) ≠ .ok ⟨"\tplayers", "id"⟩ ∧
      parse "games.pläyer" = .error (.malformed .reference 8 "games.pläyer") ∧
      ∃ front rest : String, "games.pläyer" = front ++ rest ∧ front.utf8ByteSize = 8 ∧
        Begins front.toList ∧ ∀ longer : List Char, longer <+: "games.pläyer".toList →
          Begins longer → longer <+: front.toList := by
  obtain ⟨_, hread, hdisplay, herror⟩ := parse_refers
  have hfails : parse "games.pläyer" = .error (.malformed .reference 8 "games.pläyer") := by
    decide +kernel
  obtain ⟨front, rest, hsplit, hcause, _, hlongest⟩ := herror _ _ hfails
  refine ⟨(hdisplay _).mpr (by decide), ?_, mt (hdisplay _).mp (by decide), hfails, front, rest,
    hsplit, ?_, hlongest⟩
  · exact (hread _ _ _).mpr ⟨['\t'], [], rfl, rfl, rfl, (isIdentifier_iff "players").mp (by decide),
      (isIdentifier_iff "id").mp (by decide)⟩
  · injection hcause with _ hposition _
    exact hposition.symm

end Reference

end BoundSql
