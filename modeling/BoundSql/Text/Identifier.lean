import BoundSql.Text.Blank

/-!
# Identifiers

A plain identifier is an ASCII letter or underscore followed by ASCII letters, digits and
underscores.
-/

namespace BoundSql

def isIdentifierStart (c : Char) : Bool := c.isAlpha || c == '_'

def isIdentifierPart (c : Char) : Bool := c.isAlphanum || c == '_'

/-- The whole text is one identifier. -/
def isIdentifierText : List Char → Bool
  | [] => false
  | c :: cs => isIdentifierStart c && cs.all isIdentifierPart

/-- The whole text is one identifier. -/
def isIdentifier (name : String) : Bool := isIdentifierText name.toList

/-- The longest identifier in front of a text and what follows it; on failure the text itself. -/
def takeIdentifier : List Char → Except (List Char) (List Char × List Char)
  | [] => .error []
  | c :: cs =>
    if isIdentifierStart c then
      .ok (c :: cs.takeWhile isIdentifierPart, cs.dropWhile isIdentifierPart)
    else .error (c :: cs)

theorem append_of_takeIdentifier {cs name rest : List Char}
    (h : takeIdentifier cs = .ok (name, rest)) : name ++ rest = cs := by
  cases cs with
  | nil => simp [takeIdentifier] at h
  | cons c cs =>
    simp only [takeIdentifier] at h
    split at h
    · obtain ⟨rfl, rfl⟩ : _ ∧ _ := by simpa using h
      simp [List.takeWhile_append_dropWhile]
    · simp at h

end BoundSql
