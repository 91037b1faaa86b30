import BoundSql.Quoting
import Mathlib.Logic.Function.Defs

/-!
# Reading quoted identifiers

An identifier whose closing text is one mark can be read back from any text that begins with it
and does not go on with the mark: a mark that stands twice is one mark of the identifier, and the
first one that stands alone ends it. No identifier, whatever marks it holds, can therefore end its
own quotes, and no two have the same quoted form.
-/

namespace BoundSql

namespace Quoting

/-! ### The reader -/

/-- What stands before the first mark that is not doubled, and what follows that mark. -/
def takeClosed (mark : Char) : List Char → Option (List Char × List Char)
  | [] => none
  | [c] => if c = mark then some ([], []) else none
  | c :: d :: cs =>
    if c = mark then
      if d = mark then (takeClosed mark cs).map fun r => (mark :: r.1, r.2)
      else some ([], d :: cs)
    else (takeClosed mark (d :: cs)).map fun r => (c :: r.1, r.2)

/-- Reads an identifier in front of a text: the opening text, and then up to the mark. -/
def take? (q : Quoting) (mark : Char) (cs : List Char) : Option (String × List Char) :=
  if q.opening.toList.isPrefixOf cs then
    (takeClosed mark (cs.drop q.opening.toList.length)).map fun r => (String.ofList r.1, r.2)
  else none

/-- Reads an owner, a full stop and a column in front of a text. -/
def takeColumn? (q : Quoting) (mark : Char) (cs : List Char) :
    Option ((String × String) × List Char) :=
  match q.take? mark cs with
  | some (owner, '.' :: rest) => (q.take? mark rest).map fun r => ((owner, r.1), r.2)
  | _ => none

theorem takeClosed_cons (mark c : Char) (cs : List Char) (hc : c ≠ mark) :
    takeClosed mark (c :: cs) = (takeClosed mark cs).map fun r => (c :: r.1, r.2) := by
  cases cs with
  | nil => simp [takeClosed, hc]
  | cons d cs => rw [takeClosed, if_neg hc]

theorem takeClosed_doubled (mark : Char) (cs : List Char) :
    takeClosed mark (mark :: mark :: cs)
      = (takeClosed mark cs).map fun r => (mark :: r.1, r.2) := by
  rw [takeClosed, if_pos rfl, if_pos rfl]

theorem takeClosed_mark (mark : Char) (rest : List Char) (hrest : rest.head? ≠ some mark) :
    takeClosed mark (mark :: rest) = some ([], rest) := by
  cases rest with
  | nil => rw [takeClosed, if_pos rfl]
  | cons d cs =>
    have hd : d ≠ mark := fun he => hrest (congrArg some he)
    rw [takeClosed, if_pos rfl, if_neg hd]

/-! ### Reading back -/

theorem doubleMark_cons_mark (mark : Char) (cs : List Char) :
    doubleMark [mark] 0 (mark :: cs) = mark :: mark :: doubleMark [mark] 0 cs := by
  simp [doubleMark]

theorem doubleMark_cons_of_ne (mark c : Char) (cs : List Char) (hc : c ≠ mark) :
    doubleMark [mark] 0 (c :: cs) = c :: doubleMark [mark] 0 cs := by
  simp [doubleMark, Ne.symm hc]

theorem doubleMark_of_not_mem (mark : Char) (cs : List Char) (h : mark ∉ cs) :
    doubleMark [mark] 0 cs = cs := by
  induction cs with
  | nil => rfl
  | cons c cs ih =>
    rw [List.mem_cons, not_or] at h
    rw [doubleMark_cons_of_ne mark c cs (Ne.symm h.1), ih h.2]

theorem doubleMark_nil (cs : List Char) : doubleMark [] 0 cs = cs := by
  induction cs with
  | nil => rfl
  | cons c cs ih => rw [doubleMark, if_neg (by simp), ih]

theorem quote_plain (name : String) : plain.quote name = name := by
  have hnone : plain.quoteText name.toList = name.toList := by
    simp [quoteText, plain, doubleMark_nil]
  rw [quote, hnone, String.ofList_toList]

theorem takeClosed_doubleMark (mark : Char) (name rest : List Char)
    (hrest : rest.head? ≠ some mark) :
    takeClosed mark (doubleMark [mark] 0 name ++ mark :: rest) = some (name, rest) := by
  induction name with
  | nil => exact takeClosed_mark mark rest hrest
  | cons c cs ih =>
    by_cases hc : c = mark
    · rw [hc, doubleMark_cons_mark, List.cons_append, List.cons_append, takeClosed_doubled, ih]
      rfl
    · rw [doubleMark_cons_of_ne mark c cs hc, List.cons_append, takeClosed_cons mark c _ hc, ih]
      rfl

theorem eq_of_takeClosed (mark : Char) (cs name rest : List Char)
    (h : takeClosed mark cs = some (name, rest)) :
    cs = doubleMark [mark] 0 name ++ mark :: rest ∧ rest.head? ≠ some mark := by
  -- The cases are those of the reader, which looks at two characters at a time.
  induction cs using takeClosed.induct mark generalizing name with
  | case1 => cases h
  | case2 =>
    rw [takeClosed_mark mark [] (by simp)] at h
    obtain ⟨rfl, rfl⟩ := Prod.mk.inj (Option.some.inj h)
    exact ⟨rfl, by simp⟩
  | case3 c hc =>
    rw [takeClosed, if_neg hc] at h
    cases h
  | case4 cs ih =>
    rw [takeClosed_doubled, Option.map_eq_some_iff] at h
    obtain ⟨⟨text, other⟩, htext, he⟩ := h
    obtain ⟨rfl, rfl⟩ := Prod.mk.inj he
    obtain ⟨hcs, hrest⟩ := ih text htext
    exact ⟨by rw [doubleMark_cons_mark, hcs, List.cons_append, List.cons_append], hrest⟩
  | case5 d cs hd =>
    have hne : (d :: cs).head? ≠ some mark := fun he => hd (Option.some.inj he)
    rw [takeClosed_mark mark _ hne] at h
    obtain ⟨rfl, rfl⟩ := Prod.mk.inj (Option.some.inj h)
    exact ⟨rfl, hne⟩
  | case6 c d cs hc ih =>
    rw [takeClosed_cons mark c _ hc, Option.map_eq_some_iff] at h
    obtain ⟨⟨text, other⟩, htext, he⟩ := h
    obtain ⟨rfl, rfl⟩ := Prod.mk.inj he
    obtain ⟨hcs, hrest⟩ := ih text htext
    exact ⟨by rw [doubleMark_cons_of_ne mark c text hc, hcs, List.cons_append], hrest⟩

theorem quote_toList (q : Quoting) (mark : Char) (name : String)
    (hclosing : q.closing.toList = [mark]) :
    (q.quote name).toList
      = q.opening.toList ++ (doubleMark [mark] 0 name.toList ++ [mark]) := by
  rw [quote, String.toList_ofList, quoteText, hclosing, List.append_assoc]

theorem take?_eq_some_iff (q : Quoting) (mark : Char) (name : String) (cs rest : List Char)
    (hclosing : q.closing.toList = [mark]) :
    q.take? mark cs = some (name, rest) ↔
      cs = (q.quote name).toList ++ rest ∧ rest.head? ≠ some mark := by
  have htext : (q.quote name).toList ++ rest
      = q.opening.toList ++ (doubleMark [mark] 0 name.toList ++ mark :: rest) := by
    simp [quote_toList q mark name hclosing]
  constructor
  · intro h
    unfold take? at h
    split at h
    · next hopen =>
      obtain ⟨body, rfl⟩ := List.isPrefixOf_iff_prefix.mp hopen
      rw [List.drop_left, Option.map_eq_some_iff] at h
      obtain ⟨⟨text, other⟩, hbody, he⟩ := h
      obtain ⟨rfl, rfl⟩ := Prod.mk.inj he
      obtain ⟨hdoubled, hrest⟩ := eq_of_takeClosed mark body text other hbody
      rw [String.toList_ofList] at htext
      exact ⟨by rw [htext, hdoubled], hrest⟩
    · cases h
  · rintro ⟨hcs, hrest⟩
    have hopen : q.opening.toList.isPrefixOf cs = true := by
      rw [hcs, htext, List.isPrefixOf_iff_prefix]
      exact List.prefix_append ..
    rw [take?, if_pos hopen, hcs, htext, List.drop_left,
      takeClosed_doubleMark mark _ rest hrest, Option.map_some, String.ofList_toList]

theorem take?_quote (q : Quoting) (mark : Char) (name : String) (rest : List Char)
    (hclosing : q.closing.toList = [mark]) (hrest : rest.head? ≠ some mark) :
    q.take? mark ((q.quote name).toList ++ rest) = some (name, rest) :=
  (take?_eq_some_iff q mark name _ rest hclosing).mpr ⟨rfl, hrest⟩

theorem takeColumn?_quoteColumn (q : Quoting) (mark : Char) (c : ColumnRef) (owner : String)
    (rest : List Char) (hclosing : q.closing.toList = [mark]) (hmark : mark ≠ '.')
    (howner : c.ownerName = some owner) (hrest : rest.head? ≠ some mark) :
    q.takeColumn? mark ((q.quoteColumn c).toList ++ rest) = some ((owner, c.name), rest) := by
  have htext : (q.quoteColumn c).toList ++ rest
      = (q.quote owner).toList ++ '.' :: ((q.quote c.name).toList ++ rest) := by
    simp [quoteColumn, howner]
  have hdot : ('.' :: ((q.quote c.name).toList ++ rest)).head? ≠ some mark :=
    fun he => hmark (Option.some.inj he).symm
  rw [takeColumn?, htext, take?_quote q mark owner _ hclosing hdot]
  simp only [take?_quote q mark c.name rest hclosing hrest, Option.map_some]

theorem injective_quote (q : Quoting) (mark : Char) (hclosing : q.closing.toList = [mark]) :
    Function.Injective q.quote := by
  -- The reader gives back the one identifier that the text is the quoted form of.
  intro name other he
  have hname := take?_quote q mark name [] hclosing (by simp)
  rw [he, take?_quote q mark other [] hclosing (by simp)] at hname
  exact (congrArg Prod.fst (Option.some.inj hname)).symm

/--
Under a closing text of one mark the reader takes an identifier, whatever it holds, from a text
just when the text is the quoted identifier followed by something that does not begin with the
mark, and leaves that. No two identifiers have the same quoted form. Unless the mark is the full
stop, a column with an owner is read back as the owner and the column.
-/
theorem quote_reads_back (q : Quoting) (mark : Char) (hclosing : q.closing.toList = [mark]) :
    (∀ (name : String) (cs rest : List Char), q.take? mark cs = some (name, rest) ↔
        cs = (q.quote name).toList ++ rest ∧ rest.head? ≠ some mark) ∧
      Function.Injective q.quote ∧
      (mark ≠ '.' → ∀ (c : ColumnRef) (owner : String) (rest : List Char),
        c.ownerName = some owner → rest.head? ≠ some mark →
          q.takeColumn? mark ((q.quoteColumn c).toList ++ rest)
            = some ((owner, c.name), rest)) :=
  ⟨fun name cs rest => take?_eq_some_iff q mark name cs rest hclosing,
    injective_quote q mark hclosing,
    fun hmark c owner rest howner hrest =>
      takeColumn?_quoteColumn q mark c owner rest hclosing hmark howner hrest⟩

def brackets : Quoting := ⟨"[", "]"⟩

/-- A column whose name and owner begin and end with the mark. -/
def bracketed : ColumnRef := { name := "]", qualifier := some "]a].[b]" }

theorem quote_reads_back_brackets :
    brackets.closing.toList = [']'] ∧ brackets.quoteColumn bracketed = "[]]a]].[b]]].[]]]" ∧
      brackets.take? ']' "[]]a]].[b]]].[]]] = 1".toList = some ("]a].[b]", ".[]]] = 1".toList) ∧
      Function.Injective brackets.quote ∧
      brackets.takeColumn? ']' "[]]a]].[b]]].[]]] = 1".toList
        = some (("]a].[b]", "]"), " = 1".toList) := by
  obtain ⟨hread, hinjective, hcolumn⟩ := quote_reads_back brackets ']' rfl
  exact ⟨rfl, rfl, (hread ..).mpr ⟨rfl, by decide⟩, hinjective,
    hcolumn (by decide) bracketed "]a].[b]" " = 1".toList rfl (by decide)⟩

end Quoting

end BoundSql
