/-!
# Switches

How words on a command line are switches, their values, and plain words. A switch has a short
form `-x`, a long form `--name`, or both. A value stands in the same word (`-xv`, `-x=v`,
`--name=v`) or in the next one, which must then not begin with a hyphen unless it is a hyphen
alone. Short switches without values may share a word. After `--` every word is plain.
-/

namespace BoundSql

/-- Why reading a command line ends before its end. -/
inductive Stop where
  /-- The words are no command line of this program. -/
  | refused
  | version
  | help
deriving DecidableEq

/-- A switch of a command; `κ` names its meaning. -/
structure Switch (κ : Type) where
  meaning : κ
  short : Option Char
  long : Option String
  takesValue : Bool

namespace Switch

/-- A word as the parts of a command line. -/
inductive Word where
  | plain
  /-- The word after which all are plain. -/
  | escape
  | long (name : String) (value : Option String)
  | short (letters : List Char)
deriving DecidableEq

/-- What a word is. -/
def classify (word : String) : Word :=
  match word.toList with
  | ['-', '-'] => .escape
  | '-' :: '-' :: cs =>
    let name := String.ofList (cs.takeWhile (· != '='))
    match cs.dropWhile (· != '=') with
    | [] => .long name none
    | _ :: value => .long name (some (String.ofList value))
  | ['-'] => .plain
  | '-' :: cs => .short cs
  | _ => .plain

def ofShort? (switches : List (Switch κ)) (c : Char) : Option (Switch κ) :=
  switches.find? fun s => s.short == some c

def ofLong? (switches : List (Switch κ)) (name : String) : Option (Switch κ) :=
  switches.find? fun s => s.long == some name

/-- What a command does with a switch and its value. -/
abbrev Action (κ σ : Type) := σ → κ → Option String → Except Stop σ

/-- Short switches in one word; the last may need the next word as its value. -/
def takeLetters (switches : List (Switch κ)) (act : Action κ σ) :
    List Char → σ → Except Stop (σ × Option κ)
  | [], s => .ok (s, none)
  | c :: cs, s =>
    match ofShort? switches c with
    | none => .error .refused
    | some switch =>
      if switch.takesValue then
        match cs with
        | [] => .ok (s, some switch.meaning)
        | '=' :: value =>
          (act s switch.meaning (some (String.ofList value))).map fun s => (s, none)
        | value => (act s switch.meaning (some (String.ofList value))).map fun s => (s, none)
      else
        match act s switch.meaning none with
        | .ok s => takeLetters switches act cs s
        | .error e => .error e

/-- One long switch; it may need the next word as its value. -/
def takeLong (switches : List (Switch κ)) (act : Action κ σ) (name : String)
    (value : Option String) (s : σ) : Except Stop (σ × Option κ) :=
  match ofLong? switches name with
  | none => .error .refused
  | some switch =>
    match switch.takesValue, value with
    | true, none => .ok (s, some switch.meaning)
    | true, some v => (act s switch.meaning (some v)).map fun s => (s, none)
    | false, none => (act s switch.meaning none).map fun s => (s, none)
    | false, some _ => .error .refused

/-- The switches in one word. -/
def takeWord (switches : List (Switch κ)) (act : Action κ σ) (word : Word) (s : σ) :
    Except Stop (σ × Option κ) :=
  match word with
  | .long name value => takeLong switches act name value s
  | .short letters => takeLetters switches act letters s
  | _ => .error .refused

/-- Whether a word may be the value of the switch before it. -/
def isValue (word : String) : Bool := classify word == .plain

/-- Reads switches up to the first plain word, the escape or the end, and returns the rest. -/
def readUntilPlain (switches : List (Switch κ)) (act : Action κ σ) :
    List String → σ → Except Stop (σ × List String)
  | [], s => .ok (s, [])
  | word :: rest, s =>
    match classify word with
    | .plain => .ok (s, word :: rest)
    | .escape => .ok (s, word :: rest)
    | w =>
      match takeWord switches act w s with
      | .error e => .error e
      | .ok (s, none) => readUntilPlain switches act rest s
      | .ok (s, some k) =>
        match rest with
        | [] => .error .refused
        | next :: rest =>
          if isValue next then
            match act s k (some next) with
            | .ok s => readUntilPlain switches act rest s
            | .error e => .error e
          else .error .refused

/-- Reads switches and plain words to the end; `fuel` bounds the number of plain words. -/
def readAll (switches : List (Switch κ)) (act : Action κ σ)
    (plain : σ → String → Except Stop σ) : (fuel : Nat) → List String → σ → Except Stop σ
  | 0, _, _ => .error .refused
  | fuel + 1, words, s =>
    match readUntilPlain switches act words s with
    | .error e => .error e
    | .ok (s, []) => .ok s
    | .ok (s, word :: rest) =>
      if classify word = .escape then rest.foldlM plain s
      else
        match plain s word with
        | .ok s => readAll switches act plain fuel rest s
        | .error e => .error e

end Switch

end BoundSql
