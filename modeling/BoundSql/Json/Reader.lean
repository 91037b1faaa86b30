import BoundSql.Json.Basic
import BoundSql.Error

/-!
# Reading JSON

The reader takes standard JSON nested at most 127 deep. Of members with one key the last counts,
and the members of an object come out in the order of their keys. An integer within sixty-four
bits stays an integer; other numbers become floats by stepwise scaling, and a number beyond the
range of floats is an error.
-/

namespace BoundSql

namespace Json

/-- A space, tab, line feed or carriage return. -/
def isGap (c : Char) : Bool := c == ' ' || c == '\t' || c == '\n' || c == '\r'

def skipGap (cs : List Char) : List Char := cs.dropWhile isGap

/-! ### Numbers -/

/-- The greatest significand. -/
def significandLimit : Nat := Nat.pow 2 64 - 1

/-- Takes digits into a significand while they fit, and what is left of them. -/
def accumulate (significand : Nat) : List Char → Nat × List Char
  | [] => (significand, [])
  | c :: cs =>
    let next := 10 * significand + digitValue c
    if significandLimit < next then (significand, c :: cs) else accumulate next cs

/-- The exponent part after its `e`: sign, digits, rest. -/
def takeExponent (cs : List Char) : Option (Bool × Nat × List Char) :=
  let (negative, cs) := Binary64.takeSign cs
  let (digits, rest) := takeDigits cs
  if digits.isEmpty then none else some (negative, digitsValue digits, rest)

/--
The float of a significand and an exponent before an optional exponent part. A written exponent
of `2 ^ 31` or more makes the number zero if it is negative or the significand is zero.
-/
def finishFloat (negative : Bool) (significand : Nat) (exponent : Int) (cs : List Char) :
    Option (Json × List Char) :=
  let scaled (e : Int) (rest : List Char) :=
    (Binary64.ofScaled negative significand e).map fun x => (float x, rest)
  match cs with
  | c :: more =>
    if c = 'e' ∨ c = 'E' then
      match takeExponent more with
      | none => none
      | some (down, written, rest) =>
        if Nat.pow 2 31 ≤ written then
          if significand ≠ 0 ∧ !down then none
          else some (float (Binary64.zero negative), rest)
        else scaled (if down then exponent - written else exponent + written) rest
    else scaled exponent cs
  | [] => scaled exponent cs

/-- Whether a fraction or an exponent follows. -/
def startsFloat : List Char → Bool
  | c :: _ => c == '.' || c == 'e' || c == 'E'
  | [] => false

/-- The number whose digits before the point are given, none of them missing. -/
def finishNumber (negative : Bool) (whole cs : List Char) : Option (Json × List Char) :=
  let (significand, dropped) := accumulate 0 whole
  match cs with
  | '.' :: cs =>
    let (fraction, rest) := takeDigits cs
    if fraction.isEmpty then none
    else
      let (extended, ignored) := accumulate significand fraction
      let places := fraction.length - ignored.length
      finishFloat negative extended ((dropped.length : Int) - places) rest
  | cs =>
    if startsFloat cs ∨ !dropped.isEmpty then finishFloat negative significand dropped.length cs
    else if !negative then some (int significand, cs)
    else if significand = 0 ∨ Nat.pow 2 63 < significand then
      some (float (Binary64.roundRatio true significand 1), cs)
    else some (int (-(significand : Int)), cs)

/-- A number; a zero in front of its digits stands alone. -/
def readNumber (negative : Bool) (cs : List Char) : Option (Json × List Char) :=
  let (whole, rest) := takeDigits cs
  match whole with
  | [] => none
  | '0' :: _ :: _ => none
  | _ => finishNumber negative whole rest

/-! ### Strings -/

/-- Four hexadecimal digits. -/
def hexUnit? (a b c d : Char) : Option Nat := do
  return (((← hexValue? a) * 16 + (← hexValue? b)) * 16 + (← hexValue? c)) * 16 + (← hexValue? d)

/-- The character that a letter after a backslash stands for. -/
def simpleEscape? (c : Char) : Option Char :=
  if c = '"' ∨ c = '\\' ∨ c = '/' then some c
  else if c = 'b' then some (Char.ofNat 8)
  else if c = 'f' then some (Char.ofNat 12)
  else if c = 'n' then some '\n'
  else if c = 'r' then some '\r'
  else if c = 't' then some '\t'
  else none

/-- The rest of a string after its opening quote, and what follows the closing one. -/
def readString : List Char → Option (List Char × List Char)
  | [] => none
  | '"' :: cs => some ([], cs)
  | '\\' :: 'u' :: a :: b :: c :: d :: cs =>
    match hexUnit? a b c d with
    | none => none
    | some unit =>
      if 0xDC00 ≤ unit ∧ unit ≤ 0xDFFF then none
      else if 0xD800 ≤ unit ∧ unit ≤ 0xDBFF then
        match cs with
        | '\\' :: 'u' :: e :: f :: g :: h :: cs =>
          match hexUnit? e f g h with
          | none => none
          | some low =>
            if 0xDC00 ≤ low ∧ low ≤ 0xDFFF then
              let c := Char.ofNat (0x10000 + (unit - 0xD800) * 0x400 + (low - 0xDC00))
              (readString cs).map fun (s, rest) => (c :: s, rest)
            else none
        | _ => none
      else (readString cs).map fun (s, rest) => (Char.ofNat unit :: s, rest)
  | '\\' :: c :: cs =>
    match simpleEscape? c with
    | none => none
    | some e => (readString cs).map fun (s, rest) => (e :: s, rest)
  | c :: cs =>
    if c.toNat < 32 ∨ c = '\\' then none
    else (readString cs).map fun (s, rest) => (c :: s, rest)

/-! ### Documents -/

/-- Puts a member in its place by key, unless a later member has the key. -/
def addMember (key : String) (j : Json) : List (String × Json) → List (String × Json)
  | [] => [(key, j)]
  | (k, i) :: ms =>
    if key = k then (k, i) :: ms
    else if key < k then (key, j) :: (k, i) :: ms
    else (k, i) :: addMember key j ms

/-- A literal word and what follows it. -/
def readWord (word : String) (j : Json) (cs : List Char) : Option (Json × List Char) :=
  if word.toList.isPrefixOf cs then some (j, cs.drop word.length) else none

mutual
/-- A document nested at most `depth` deep, and what follows it; `fuel` bounds the recursion. -/
def readValue : (fuel depth : Nat) → List Char → Option (Json × List Char)
  | 0, _, _ => none
  | fuel + 1, depth, cs =>
    match skipGap cs with
    | [] => none
    | '"' :: cs => (readString cs).map fun (s, rest) => (string (String.ofList s), rest)
    | '[' :: cs =>
      if depth = 0 then none
      else
        match skipGap cs with
        | ']' :: rest => some (array [], rest)
        | cs => (readItems fuel (depth - 1) cs).map fun (items, rest) => (array items, rest)
    | '\x7b' :: cs =>
      if depth = 0 then none
      else
        match skipGap cs with
        | '\x7d' :: rest => some (object [], rest)
        | cs =>
          (readMembers fuel (depth - 1) cs).map fun (members, rest) => (object members, rest)
    | '-' :: cs => readNumber true cs
    | c :: cs =>
      if c.isDigit then readNumber false (c :: cs)
      else if c = 'n' then readWord "null" null (c :: cs)
      else if c = 't' then readWord "true" (bool true) (c :: cs)
      else if c = 'f' then readWord "false" (bool false) (c :: cs)
      else none

/-- At least one item, and what follows the closing bracket. -/
def readItems : (fuel depth : Nat) → List Char → Option (List Json × List Char)
  | 0, _, _ => none
  | fuel + 1, depth, cs =>
    match readValue fuel depth cs with
    | none => none
    | some (j, cs) =>
      match skipGap cs with
      | ']' :: rest => some ([j], rest)
      | ',' :: cs => (readItems fuel depth cs).map fun (js, rest) => (j :: js, rest)
      | _ => none

/-- At least one member, and what follows the closing brace. -/
def readMembers : (fuel depth : Nat) → List Char → Option (List (String × Json) × List Char)
  | 0, _, _ => none
  | fuel + 1, depth, cs =>
    match skipGap cs with
    | '"' :: cs =>
      match readString cs with
      | none => none
      | some (key, cs) =>
        match skipGap cs with
        | ':' :: cs =>
          match readValue fuel depth cs with
          | none => none
          | some (j, cs) =>
            match skipGap cs with
            | '\x7d' :: rest => some ([(String.ofList key, j)], rest)
            | ',' :: cs =>
              (readMembers fuel depth cs).map fun (ms, rest) =>
                (addMember (String.ofList key) j ms, rest)
            | _ => none
        | _ => none
    | _ => none
end

/-- The greatest depth of a document that is read. -/
def depthLimit : Nat := 127

/-- A document in front of a text, and what follows it. -/
def readFront (cs : List Char) : Option (Json × List Char) :=
  readValue (2 * cs.length + 2) depthLimit cs

/-- Reads a whole text. -/
def parse (text : String) : Except Error Json :=
  match readFront text.toList with
  | some (j, rest) => if (skipGap rest).isEmpty then .ok j else .error .notJson
  | none => .error .notJson

end Json

namespace Scalar

/-- Reads a scalar from a JSON text; its form is judged before what follows it. -/
def ofJsonText (text : String) : Except Error Scalar :=
  match Json.readFront text.toList with
  | none => .error .notJson
  | some (j, rest) =>
    match j.scalar? with
    | none => .error (.misshapen .shape)
    | some v => if (Json.skipGap rest).isEmpty then .ok v else .error .notJson

end Scalar

end BoundSql
