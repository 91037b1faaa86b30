import BoundSql.CommandLine.Arguments
import BoundSql.Proofs.Json.Fields

/-!
# Arguments of commands

What a command is read from is changed by nothing but its own switches and its plain words. So a
command is given nothing for which it has no switch: only a SELECT has an alias, a list of columns
and terms to order by.
-/

namespace BoundSql

namespace Switch

/-! ### Reading keeps what every switch and every plain word keeps -/

section Keeping

variable {κ σ : Type} (switches : List (Switch κ)) (act : Action κ σ) (P : σ → Prop)
  (hact : ∀ switch ∈ switches, ∀ s value s', act s switch.meaning value = .ok s' → P s → P s')

include hact

theorem takeLetters_keeps (letters : List Char) (s s' : σ) (pending : Option κ)
    (h : takeLetters switches act letters s = .ok (s', pending)) (hs : P s) :
    P s' ∧ ∀ k ∈ pending, ∃ switch ∈ switches, switch.meaning = k := by
  induction letters generalizing s with
  | nil =>
    obtain ⟨rfl, rfl⟩ := Prod.mk.inj (Except.ok.inj h)
    exact ⟨hs, by simp⟩
  | cons c cs ih =>
    rw [takeLetters] at h
    split at h
    · cases h
    · next switch hfound =>
      have hmem : switch ∈ switches := List.mem_of_find?_eq_some hfound
      split at h
      · split at h
        · obtain ⟨rfl, rfl⟩ := Prod.mk.inj (Except.ok.inj h)
          exact ⟨hs, by simpa using ⟨switch, hmem, rfl⟩⟩
        all_goals
          obtain ⟨t, ht, he⟩ := (map_eq_ok _ _ _).mp h
          obtain ⟨rfl, rfl⟩ := Prod.mk.inj he
          exact ⟨hact switch hmem s _ _ ht hs, by simp⟩
      · split at h
        · next t ht => exact ih t h (hact switch hmem s none t ht hs)
        · cases h

theorem takeLong_keeps (name : String) (value : Option String) (s s' : σ) (pending : Option κ)
    (h : takeLong switches act name value s = .ok (s', pending)) (hs : P s) :
    P s' ∧ ∀ k ∈ pending, ∃ switch ∈ switches, switch.meaning = k := by
  rw [takeLong] at h
  split at h
  · cases h
  · next switch hfound =>
    have hmem : switch ∈ switches := List.mem_of_find?_eq_some hfound
    split at h
    · obtain ⟨rfl, rfl⟩ := Prod.mk.inj (Except.ok.inj h)
      exact ⟨hs, by simpa using ⟨switch, hmem, rfl⟩⟩
    · obtain ⟨t, ht, he⟩ := (map_eq_ok _ _ _).mp h
      obtain ⟨rfl, rfl⟩ := Prod.mk.inj he
      exact ⟨hact switch hmem s _ _ ht hs, by simp⟩
    · obtain ⟨t, ht, he⟩ := (map_eq_ok _ _ _).mp h
      obtain ⟨rfl, rfl⟩ := Prod.mk.inj he
      exact ⟨hact switch hmem s _ _ ht hs, by simp⟩
    · cases h

theorem takeWord_keeps (word : Word) (s s' : σ) (pending : Option κ)
    (h : takeWord switches act word s = .ok (s', pending)) (hs : P s) :
    P s' ∧ ∀ k ∈ pending, ∃ switch ∈ switches, switch.meaning = k := by
  cases word with
  | long name value => exact takeLong_keeps switches act P hact name value s s' pending h hs
  | short letters => exact takeLetters_keeps switches act P hact letters s s' pending h hs
  | plain => cases h
  | escape => cases h

theorem readUntilPlain_keeps (words : List String) (s s' : σ) (rest : List String)
    (h : readUntilPlain switches act words s = .ok (s', rest)) (hs : P s) : P s' := by
  fun_induction readUntilPlain switches act words s with
  | case1 s => exact (Prod.mk.inj (Except.ok.inj h)).1 ▸ hs
  | case2 s word rest hword => exact (Prod.mk.inj (Except.ok.inj h)).1 ▸ hs
  | case3 s word rest hword => exact (Prod.mk.inj (Except.ok.inj h)).1 ▸ hs
  | case4 => cases h
  | case5 word rest s t hplain hescape ht ih =>
    exact ih h (takeWord_keeps switches act P hact _ s t none ht hs).1
  | case6 => cases h
  | case7 word s t k next rest hvalue u hu hplain hescape ht ih =>
    obtain ⟨htk, hk⟩ := takeWord_keeps switches act P hact _ s t (some k) ht hs
    obtain ⟨switch, hmem, rfl⟩ := hk k rfl
    exact ih h (hact switch hmem t _ u hu htk)
  | case8 => cases h
  | case9 => cases h

theorem readAll_keeps (plain : σ → String → Except Stop σ)
    (hplain : ∀ s word s', plain s word = .ok s' → P s → P s') (fuel : Nat)
    (words : List String) (s s' : σ) (h : readAll switches act plain fuel words s = .ok s')
    (hs : P s) : P s' := by
  have hrest : ∀ (words : List String) (s s' : σ), words.foldlM plain s = .ok s' → P s → P s' := by
    intro words
    induction words with
    | nil =>
      intro s s' h hs
      exact (pure_eq_ok s s').mp h ▸ hs
    | cons word words ih =>
      intro s s' h hs
      rw [List.foldlM_cons, bind_eq_ok] at h
      obtain ⟨t, ht, h⟩ := h
      exact ih t s' h (hplain s word t ht hs)
  -- The cases are those of `readAll`: the switches before a plain word, the word, and what is left,
  -- or the rest after an escape, where every word is plain.
  fun_induction readAll switches act plain fuel words s with
  | case1 => cases h
  | case2 => cases h
  | case3 fuel words s t ht =>
    exact Except.ok.inj h ▸ readUntilPlain_keeps switches act P hact words s t [] ht hs
  | case4 fuel words s t word rest ht hescape =>
    exact hrest rest t s' h (readUntilPlain_keeps switches act P hact words s t _ ht hs)
  | case5 fuel words s t word rest ht hescape u hu ih =>
    have htk := readUntilPlain_keeps switches act P hact words s t _ ht hs
    exact ih h (hplain t word u hu htk)
  | case6 => cases h

end Keeping

end Switch

namespace CommandLine

/-! ### What a command is not given -/

/-- Nothing is given that the meaning sets. -/
def Untouched (a : StatementArguments) : Meaning → Prop
  | .aliased => a.aliased = none
  | .columns => a.columns = []
  | .filter => a.filters = []
  | .order => a.order = []
  | .limit => a.limit = none
  | .offset => a.offset = none
  | .distinct => a.distinct = false
  | .value => a.values = []
  | _ => True

theorem untouched_of_setArgument (a a' : StatementArguments) (meaning other : Meaning)
    (value : Option String) (h : setArgument a meaning value = .ok a') (hother : meaning ≠ other)
    (ha : Untouched a other) : Untouched a' other := by
  cases meaning <;> simp only [setArgument, bind_eq_ok, pure_eq_ok] at h
  case aliased | distinct =>
    obtain ⟨_, _, _, _, rfl⟩ := h
    cases other <;> first | exact absurd rfl hother | exact ha
  case columns | filter | order | value =>
    obtain ⟨_, _, rfl⟩ := h
    cases other <;> first | exact absurd rfl hother | exact ha
  case limit | offset =>
    obtain ⟨_, _, _, _, _, _, rfl⟩ := h
    cases other <;> first | exact absurd rfl hother | exact ha
  all_goals cases h

theorem untouched_of_setTable (a a' : StatementArguments) (word : String) (other : Meaning)
    (h : setTable a word = .ok a') (ha : Untouched a other) : Untouched a' other := by
  simp only [setTable, bind_eq_ok, pure_eq_ok] at h
  obtain ⟨_, _, rfl⟩ := h
  cases other <;> exact ha

/-- The arguments of a command that builds a statement have nothing from switches it has not. -/
theorem statementArguments_untouched (switches : List (Switch Meaning)) (words : List String)
    (name : String) (a : StatementArguments)
    (h : statementArguments switches words = .ok (name, a)) (other : Meaning)
    (hother : ∀ switch ∈ switches, switch.meaning ≠ other) : Untouched a other := by
  simp only [statementArguments, bind_eq_ok, pure_eq_ok] at h
  obtain ⟨a', hread, _, _, he⟩ := h
  obtain ⟨_, rfl⟩ := Prod.mk.inj he
  have hempty : Untouched {} other := by cases other <;> first | rfl | trivial
  exact Switch.readAll_keeps switches setArgument (Untouched · other)
    (fun switch hmem s value s' hset =>
      untouched_of_setArgument s s' switch.meaning other value hset (hother switch hmem))
    setTable (fun s word s' => untouched_of_setTable s s' word other) _ words {} a' hread hempty

def statement? : Command → Option (String × StatementArguments)
  | .select name a => some (name, a)
  | .insert name a => some (name, a)
  | .update name a => some (name, a)
  | .delete name a => some (name, a)
  | _ => none

def switchesOf : Command → List (Switch Meaning)
  | .select .. => selectSwitches
  | .insert .. => [valueSwitch, helpSwitch]
  | .update .. => [valueSwitch, filterSwitch, helpSwitch]
  | .delete .. => [filterSwitch, helpSwitch]
  | _ => []

theorem readCommand_statement (name : String) (words : List String) (command : Command)
    (table : String) (a : StatementArguments) (h : readCommand name words = .ok command)
    (hstatement : statement? command = some (table, a)) :
    statementArguments (switchesOf command) words = .ok (table, a) := by
  unfold readCommand at h
  split at h
  case h_2 | h_3 | h_4 | h_5 =>
    obtain ⟨⟨table', a'⟩, hread, rfl⟩ := (map_eq_ok _ _ _).mp h
    rw [← Option.some.inj hstatement]
    exact hread
  case h_1 =>
    obtain ⟨_, _, rfl⟩ := (map_eq_ok _ _ _).mp h
    cases hstatement
  case h_6 =>
    simp only [bind_eq_ok, pure_eq_ok] at h
    obtain ⟨_, _, _, _, rfl⟩ := h
    cases hstatement
  all_goals cases h

theorem read_untouched (environment : String → Option String) (words : List String)
    (settings : Settings) (command : Command) (name : String) (a : StatementArguments)
    (h : read environment words = .ok (settings, command))
    (hstatement : statement? command = some (name, a)) (other : Meaning)
    (hother : ∀ switch ∈ switchesOf command, switch.meaning ≠ other) : Untouched a other := by
  rw [read, bind_eq_ok] at h
  obtain ⟨⟨s, rest⟩, _, h⟩ := h
  cases rest with
  | nil => cases h
  | cons first rest =>
    simp only [bind_eq_ok, pure_eq_ok] at h
    obtain ⟨command', hcommand, _, _, _, _, he⟩ := h
    obtain ⟨_, rfl⟩ := Prod.mk.inj he
    exact statementArguments_untouched _ rest name a
      (readCommand_statement first rest command' name a hcommand hstatement) other hother

/-- The command is given nothing that only other commands take. -/
def Fits : Command → Prop
  | .select _ a => a.values = []
  | .insert _ a => a.aliased = none ∧ a.columns = [] ∧ a.filters = [] ∧ a.order = []
  | .update _ a => a.aliased = none ∧ a.columns = [] ∧ a.order = []
  | .delete _ a => a.aliased = none ∧ a.columns = [] ∧ a.values = [] ∧ a.order = []
  | _ => True

theorem fits_of_read (environment : String → Option String) (words : List String)
    (settings : Settings) (command : Command)
    (h : read environment words = .ok (settings, command)) : Fits command := by
  cases command with
  | select name a =>
    have hnone := read_untouched environment words settings _ name a h rfl
    exact hnone .value (by decide : ∀ switch ∈ selectSwitches, switch.meaning ≠ .value)
  | insert name a =>
    have hnone := read_untouched environment words settings _ name a h rfl
    simp only [switchesOf, List.forall_mem_cons] at hnone
    exact ⟨hnone .aliased (by decide), hnone .columns (by decide), hnone .filter (by decide),
      hnone .order (by decide)⟩
  | update name a =>
    have hnone := read_untouched environment words settings _ name a h rfl
    simp only [switchesOf, List.forall_mem_cons] at hnone
    exact ⟨hnone .aliased (by decide), hnone .columns (by decide), hnone .order (by decide)⟩
  | delete name a =>
    have hnone := read_untouched environment words settings _ name a h rfl
    simp only [switchesOf, List.forall_mem_cons] at hnone
    exact ⟨hnone .aliased (by decide), hnone .columns (by decide), hnone .value (by decide),
      hnone .order (by decide)⟩
  | tables => trivial
  | compile file => trivial

end CommandLine

end BoundSql
