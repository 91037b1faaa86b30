import BoundSql.Clause.Select
import BoundSql.Parameter.Binder
import BoundSql.Quoting

/-!
# Templates

A template is the text of a statement in which the values to be bound still stand in their
places. `Clause.template` writes a clause as a template without looking at any value;
`Template.fill` goes through it once, from left to right, and hands out the names. What cannot be
rendered stands in the template as a refusal, which ends the filling where it stands.
-/

namespace BoundSql

/-- A part of a template. -/
inductive Piece where
  | text (s : String)
  /-- A value for the next free number of a key. -/
  | bind (key : String) (value : Scalar)
  /-- A value for a given name. -/
  | record (name : String) (value : Scalar)
  /-- A given name whose value comes later. -/
  | reserve (name : String)
  | refuse (cause : Error)

abbrev Template := List Piece

namespace Template

/-- Templates with a text between them. -/
def join (separator : String) : List Template → Template
  | [] => []
  | [t] => t
  | t :: ts => t ++ .text separator :: join separator ts

/-- A template in parentheses. -/
def parenthesized (t : Template) : Template := .text "(" :: t ++ [.text ")"]

/-- The text of one piece, and the binder after it. -/
def fillPiece (b : Binder) : Piece → Except Error (String × Binder)
  | .text s => .ok (s, b)
  | .bind key v =>
    let (name, b) := b.bind key v
    .ok (Binder.placeholder name, b)
  | .record name v => (b.record name v).map fun b => (Binder.placeholder name, b)
  | .reserve name => (b.reserve name).map fun b => (Binder.placeholder name, b)
  | .refuse cause => .error cause

/-- The texts of the pieces, and the binder after them. -/
def fill (b : Binder) : Template → Except Error (List String × Binder)
  | [] => .ok ([], b)
  | p :: ps =>
    match fillPiece b p with
    | .error cause => .error cause
    | .ok (s, b) =>
      match fill b ps with
      | .error cause => .error cause
      | .ok (ss, b) => .ok (s :: ss, b)

end Template

/-! ### Parts of statements -/

/-- ` LIMIT n`, ` OFFSET n` or both; an offset alone stands after `LIMIT -1`. -/
def limitText : Option UInt64 → Option UInt64 → String
  | some l, some o => " LIMIT " ++ toString l.toNat ++ " OFFSET " ++ toString o.toNat
  | some l, none => " LIMIT " ++ toString l.toNat
  | none, some o => " LIMIT -1 OFFSET " ++ toString o.toNat
  | none, none => ""

/-- ` FROM ` and what is selected from; nothing for an empty list. -/
def fromTemplate (froms : List Template) : Template :=
  if froms.isEmpty then [] else .text " FROM " :: Template.join ", " froms

/-- A column of a statement that changes a table, quoted, and the piece for its value. -/
abbrev Assignment := String × Piece

/--
The columns that a statement sets, with the pieces for their values: the given ones, or every
column of the table, its value to come later. A given list must name declared columns and must
not be empty.
-/
def assignments (q : Quoting) (t : Table) :
    Option (List (String × Scalar)) → Except Error (List Assignment)
  | some values =>
    let unknown := t.unknownColumns (values.map (·.1))
    if !unknown.isEmpty then .error (.unknownColumns t.name unknown)
    else if values.isEmpty then .error (.empty .valueList)
    else .ok (values.map fun (c, v) => (q.quote c, .record c v))
  | none => .ok (t.columnNames.map fun c => (q.quote c, .reserve c))

def insertTemplate (q : Quoting) (t : Table) (values : Option (List (String × Scalar))) :
    Template :=
  match assignments q t values with
  | .error cause => [.refuse cause]
  | .ok set =>
    .text ("INSERT INTO " ++ q.quote t.name ++ " (" ++ ", ".intercalate (set.map (·.1))
        ++ ") VALUES (")
      :: Template.join ", " (set.map fun a => [a.2]) ++ [.text ")"]

/-- The part of an UPDATE before its condition. -/
def updateTemplate (q : Quoting) (t : Table) (values : Option (List (String × Scalar))) :
    Template :=
  match assignments q t values with
  | .error cause => [.refuse cause]
  | .ok set =>
    .text ("UPDATE " ++ q.quote t.name ++ " SET ")
      :: Template.join ", " (set.map fun a => [.text (a.1 ++ " = "), a.2])

/-- The error for a conjunction without members. -/
def emptyJunction : Operator → Error
  | .or => .empty .orList
  | _ => .empty .andList

namespace Clause

def isGroup : Clause → Bool
  | group _ => true
  | _ => false

def isJunction : Clause → Bool
  | junction .. => true
  | _ => false

/-- A table or an alias as it is selected from; the name of an alias is never quoted. -/
def sourceText (q : Quoting) : Source → String
  | .table t => q.quote t.name
  | .aliased a => q.quote a.table.name ++ " AS " ++ a.name

def ownerText (q : Quoting) : Owner → String
  | .source s => sourceText q s
  | .named name => q.quote name

/-- The template of an operator before an operand. -/
def operatorText : Option Operator → Template
  | some o => [.text (o.symbol ++ " ")]
  | none => []

/-- The template of a modifier after an operand. -/
def modifierText : Option Operator → Template
  | some m => [.text (" " ++ m.symbol)]
  | none => []

/-! ### Clauses -/

mutual
/--
The template of a clause. Groups inside one another share one pair of parentheses, and a
conjunction that is a member of another one is put in parentheses.
-/
def template (q : Quoting) : Clause → Template
  | table t => [.text (sourceText q (.table t))]
  | named name => [.text (q.quote name)]
  | aliased a => [.text (sourceText q (.aliased a))]
  | column c => [.text (q.quoteColumn c)]
  | binary l o r => template q l ++ .text (" " ++ o.symbol ++ " ") :: template q r
  | unary o c m => operatorText o ++ template q c ++ modifierText m
  | junction o cs =>
    if cs.isEmpty then [.refuse (emptyJunction o)]
    else Template.join (" " ++ o.symbol ++ " ") (memberTemplates q cs)
  | group c => if c.isGroup then template q c else Template.parenthesized (template q c)
  | sequence cs separator => Template.join separator (templates q cs)
  | bind key v => [.bind key v]
  | null => [.text "NULL"]
  | join l r on outer =>
    template q l ++ .text (if outer then " LEFT OUTER JOIN " else " JOIN ") :: template q r
      ++ .text " ON " :: template q on
  | select columns froms condition order limit offset distinct =>
    .text (if distinct then "SELECT DISTINCT " else "SELECT ")
      :: (if columns.isEmpty then [.text "*"] else Template.join ", " (templates q columns))
      ++ (if froms.isEmpty then
            fromTemplate ((ownersOf columns).map fun o => [.text (ownerText q o)])
          else fromTemplate (templates q froms))
      ++ (match condition with
          | some c => .text " WHERE " :: template q c
          | none => [])
      ++ (match order with
          | some ⟨terms, separator⟩ =>
            if terms.isEmpty then []
            else .text " ORDER BY " :: Template.join separator (templates q terms)
          | none => [])
      ++ [.text (limitText limit offset)]
  | insert t values => insertTemplate q t values
  | update t values condition =>
    updateTemplate q t values
      ++ (match condition with
          | some c => .text " WHERE " :: template q c
          | none => [])
  | delete t condition =>
    .text ("DELETE FROM " ++ q.quote t.name)
      :: (match condition with
          | some c => .text " WHERE " :: template q c
          | none => [])

def templates (q : Quoting) : List Clause → List Template
  | [] => []
  | c :: cs => template q c :: templates q cs

/-- The templates of the members of a conjunction. -/
def memberTemplates (q : Quoting) : List Clause → List Template
  | [] => []
  | c :: cs =>
    (if c.isJunction then Template.parenthesized (template q c) else template q c)
      :: memberTemplates q cs
end

end Clause

end BoundSql
