/-!
# Reading conditions

The grammar of conditions over comparisons that are taken as atoms: NOT binds tighter than AND,
AND tighter than OR, both group to the left, and parentheses override. Every text of tokens that
reads as a condition reads as one formula only, since a reader that goes from left to right with a
stack of open parentheses finds it.
-/

namespace BoundSql.Condition

/-- A token of a condition whose comparisons are atoms. -/
inductive Token (α : Type) where
  | atom (a : α)
  | and
  | or
  | not
  | opening
  | closing
deriving DecidableEq

/-- What a condition is read as. -/
inductive Formula (α : Type) where
  | atom (a : α)
  | not (f : Formula α)
  | and (f g : Formula α)
  | or (f g : Formula α)
  | group (f : Formula α)
deriving DecidableEq

variable {α : Type}

namespace Formula

/-- The atoms, from left to right. -/
def atoms : Formula α → List α
  | atom a => [a]
  | not f => atoms f
  | and f g => atoms f ++ atoms g
  | or f g => atoms f ++ atoms g
  | group f => atoms f

/-- The truth value when the first atom is the one numbered `n`. -/
def valueFrom (v : Nat → α → Bool) (n : Nat) : Formula α → Bool
  | atom a => v n a
  | not f => !valueFrom v n f
  | and f g => valueFrom v n f && valueFrom v (n + f.atoms.length) g
  | or f g => valueFrom v n f || valueFrom v (n + f.atoms.length) g
  | group f => valueFrom v n f

/-- The truth value when the `n`-th atom from the left, counted from 0, has the value `v n`. -/
def value (v : Nat → α → Bool) (f : Formula α) : Bool := valueFrom v 0 f

end Formula

/-- How tight a part of a condition holds together. -/
inductive Level where
  | factor
  | conjunction
  | condition

/-- The tokens read as a formula, at a level. -/
inductive Reads : Level → List (Token α) → Formula α → Prop
  | atom (a : α) : Reads .factor [.atom a] (.atom a)
  | not (ts : List (Token α)) (f : Formula α) (h : Reads .factor ts f) :
    Reads .factor (.not :: ts) (.not f)
  | group (ts : List (Token α)) (f : Formula α) (h : Reads .condition ts f) :
    Reads .factor (.opening :: ts ++ [.closing]) (.group f)
  | factor (ts : List (Token α)) (f : Formula α) (h : Reads .factor ts f) :
    Reads .conjunction ts f
  | and (ts us : List (Token α)) (f g : Formula α) (hf : Reads .conjunction ts f)
    (hg : Reads .factor us g) : Reads .conjunction (ts ++ .and :: us) (.and f g)
  | conjunction (ts : List (Token α)) (f : Formula α) (h : Reads .conjunction ts f) :
    Reads .condition ts f
  | or (ts us : List (Token α)) (f g : Formula α) (hf : Reads .condition ts f)
    (hg : Reads .conjunction us g) : Reads .condition (ts ++ .or :: us) (.or f g)

/-! ### Connectives -/

/-- AND or OR. -/
inductive Connective where
  | and
  | or
deriving DecidableEq

namespace Connective

def token : Connective → Token α
  | and => .and
  | or => .or

def level : Connective → Level
  | and => .conjunction
  | or => .condition

def join : Connective → Formula α → Formula α → Formula α
  | and => .and
  | or => .or

def value : Connective → Bool → Bool → Bool
  | and => Bool.and
  | or => Bool.or

def unit : Connective → Bool
  | and => true
  | or => false

theorem value_unit (k : Connective) (b : Bool) : k.value b k.unit = b := by
  cases k with
  | and => exact Bool.and_true b
  | or => exact Bool.or_false b

theorem value_assoc (k : Connective) (a b c : Bool) :
    k.value (k.value a b) c = k.value a (k.value b c) := by
  cases k with
  | and => exact Bool.and_assoc a b c
  | or => exact Bool.or_assoc a b c

theorem reads_join (k : Connective) (ts us : List (Token α)) (f g : Formula α)
    (hf : Reads k.level ts f) (hg : Reads .factor us g) :
    Reads k.level (ts ++ k.token :: us) (k.join f g) := by
  cases k with
  | and => exact .and ts us f g hf hg
  | or => exact .or ts us f g hf (.factor us g hg)

theorem reads_of_factor (k : Connective) (ts : List (Token α)) (f : Formula α)
    (h : Reads .factor ts f) : Reads k.level ts f := by
  cases k with
  | and => exact .factor ts f h
  | or => exact .conjunction ts f (.factor ts f h)

theorem reads_condition (k : Connective) (ts : List (Token α)) (f : Formula α)
    (h : Reads k.level ts f) : Reads .condition ts f := by
  cases k with
  | and => exact .conjunction ts f h
  | or => exact h

theorem atoms_join (k : Connective) (f g : Formula α) :
    (k.join f g).atoms = f.atoms ++ g.atoms := by
  cases k <;> rfl

theorem valueFrom_join (k : Connective) (v : Nat → α → Bool) (n : Nat) (f g : Formula α) :
    (k.join f g).valueFrom v n
      = k.value (f.valueFrom v n) (g.valueFrom v (n + f.atoms.length)) := by
  cases k <;> rfl

end Connective

/-! ### The reader -/

/-- What is read since the last open parenthesis: the alternatives before the last OR, the
conjunction after it, and the number of NOTs in front of the next factor. -/
structure Frame (α : Type) where
  any : Option (Formula α) := none
  all : Option (Formula α) := none
  nots : Nat := 0

namespace Frame

def under : Nat → Formula α → Formula α
  | 0, f => f
  | n + 1, f => under n (.not f)

def factor (F : Frame α) (f : Formula α) : Frame α where
  any := F.any
  all := some (F.all.elim (under F.nots f) fun g => .and g (under F.nots f))

def formula? (F : Frame α) : Option (Formula α) :=
  F.all.map fun f => F.any.elim f fun g => .or g f

end Frame

/-- The frame since the last open parenthesis, and the ones outside of it. -/
abbrev Reader (α : Type) := Frame α × List (Frame α)

namespace Reader

def step : Reader α → Token α → Option (Reader α)
  | (F, outer), .atom a => some (F.factor (.atom a), outer)
  | (F, outer), .not => some ({ F with nots := F.nots + 1 }, outer)
  | r, .and => some r
  | (F, outer), .or => F.formula?.map fun f => ({ any := some f }, outer)
  | (F, outer), .opening => some ({}, F :: outer)
  | (F, G :: outer), .closing => F.formula?.map fun f => (G.factor (.group f), outer)
  | (_, []), .closing => none

def run (r : Reader α) (ts : List (Token α)) : Option (Reader α) := ts.foldlM step r

theorem run_cons (r : Reader α) (t : Token α) (ts : List (Token α)) :
    run r (t :: ts) = (step r t).bind fun r => run r ts := List.foldlM_cons

theorem run_append (r : Reader α) (ts us : List (Token α)) :
    run r (ts ++ us) = (run r ts).bind fun r => run r us := List.foldlM_append

/-- What reading does when the tokens read as the formula at the level. -/
def Finds (ts : List (Token α)) (f : Formula α) : Level → Prop
  | .factor => ∀ (F : Frame α) outer, run (F, outer) ts = some (F.factor f, outer)
  | .conjunction => ∀ (any : Option (Formula α)) outer,
    run ({ any := any }, outer) ts = some ({ any := any, all := some f }, outer)
  | .condition => ∀ outer, ∃ F : Frame α, F.formula? = some f ∧
    run ({}, outer) ts = some (F, outer)

theorem finds_group (ts : List (Token α)) (f : Formula α) (h : Finds ts f .condition) :
    Finds (.opening :: ts ++ [.closing]) (.group f) .factor := by
  intro G outer
  obtain ⟨F, hF, hrun⟩ := h (G :: outer)
  rw [List.cons_append, run_cons, step, Option.bind_some, run_append, hrun, Option.bind_some,
    run_cons, step, hF]
  rfl

theorem finds_and (ts us : List (Token α)) (f g : Formula α) (hf : Finds ts f .conjunction)
    (hg : Finds us g .factor) : Finds (ts ++ .and :: us) (.and f g) .conjunction := by
  intro any outer
  rw [run_append, hf any outer, Option.bind_some, run_cons, step, Option.bind_some, hg]
  rfl

theorem finds_or (ts us : List (Token α)) (f g : Formula α) (hf : Finds ts f .condition)
    (hg : Finds us g .conjunction) : Finds (ts ++ .or :: us) (.or f g) .condition := by
  intro outer
  obtain ⟨F, hF, hrun⟩ := hf outer
  refine ⟨{ any := some f, all := some g }, rfl, ?_⟩
  rw [run_append, hrun, Option.bind_some, run_cons, step, hF, Option.map_some, Option.bind_some,
    hg]

theorem finds_of_reads (l : Level) (ts : List (Token α)) (f : Formula α) (h : Reads l ts f) :
    Finds ts f l := by
  -- What stands around the tokens is arbitrary in `Finds`, so that every rule can put its parts
  -- into frames of its own.
  induction h with
  | atom a => exact fun F outer => rfl
  | not ts f h ih =>
    intro F outer
    rw [run_cons, step, Option.bind_some, ih]
    rfl
  | group ts f h ih => exact finds_group ts f ih
  | factor ts f h ih => exact fun any outer => ih { any := any } outer
  | and ts us f g hf hg ihf ihg => exact finds_and ts us f g ihf ihg
  | conjunction ts f h ih => exact fun outer => ⟨_, rfl, ih none outer⟩
  | or ts us f g hf hg ihf ihg => exact finds_or ts us f g ihf ihg

end Reader

/-- Tokens read as one condition at most. -/
theorem Reads.unique (ts : List (Token α)) (f g : Formula α) (hf : Reads .condition ts f)
    (hg : Reads .condition ts g) : f = g := by
  obtain ⟨F, hF, hrun⟩ := Reader.finds_of_reads .condition ts f hf []
  obtain ⟨G, hG, hrun'⟩ := Reader.finds_of_reads .condition ts g hg []
  rw [hrun, Option.some.injEq, Prod.mk.injEq] at hrun'
  rw [hrun'.1, hG, Option.some.injEq] at hF
  exact hF.symm

end BoundSql.Condition
