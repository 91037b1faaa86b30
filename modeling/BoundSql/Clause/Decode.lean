import BoundSql.Clause.Encode
import BoundSql.Json.Reader
import BoundSql.Json.Record

/-!
# Clauses from JSON

The inverse of `Clause.toJson`, with more freedom in the form: members in any order, members of
other names, missing parts that have a value of their own, and records as arrays. Tables and
aliases are checked as they are when declared, so that a document cannot hold what `declare`
refuses. `Clause.load` first looks at every `kind` of a document.
-/

namespace BoundSql

open Record (fault required orElse)

/-! ### Names -/

/-- An operator by its name, or the object of a custom one. -/
def Operator.ofJson (j : Json) : Except FormFault Operator :=
  match j with
  | .object [("Custom", .string token)] => .ok (.custom token)
  | j => do
    let name ← j.asName
    match Operator.registered.find? fun o => decide (o.name = name) with
    | some o => return o
    | none => throw .shape

def ColumnType.ofJson (j : Json) : Except FormFault ColumnType := do
  match ColumnType.ofName? (← j.asName) with
  | some t => return t
  | none => throw .shape

/-! ### Tables -/

def Reference.ofJson (j : Json) : Except FormFault Reference := do
  let r ← j.record
  let table := r.part 0 "table" Json.asString
  let column := r.part 1 "column" Json.asString
  r.settle [fault table, fault column] [fault column, fault table]
  return ⟨← required table, ← required column⟩

def ColumnOptions.ofJson (j : Json) : Except FormFault ColumnOptions := do
  let r ← j.record
  let length := r.part 0 "length" (Json.asOption (Json.asNat (Nat.pow 2 32)))
  let nullable := r.part 1 "nullable" Json.asBool
  let primaryKey := r.part 2 "primary_key" Json.asBool
  let autoIncrement := r.part 3 "auto_increment" Json.asBool
  let reference := r.part 4 "foreign_key" (Json.asOption Reference.ofJson)
  let default := r.part 5 "default" (Json.asOption Json.asScalar)
  r.settle
    [fault length, fault nullable, fault primaryKey, fault autoIncrement, fault reference,
     fault default]
    [fault autoIncrement, fault default, fault reference, fault length, fault nullable,
     fault primaryKey]
  return {
    length := (← orElse length none).map UInt32.ofNat
    nullable := ← orElse nullable true
    primaryKey := ← orElse primaryKey false
    autoIncrement := ← orElse autoIncrement false
    reference := ← orElse reference none
    default := ← orElse default none }

def Column.ofJson (j : Json) : Except FormFault Column := do
  let r ← j.record
  let name := r.part 0 "name" Json.asString
  let type := r.part 1 "sql_type" ColumnType.ofJson
  let options := r.part 2 "options" ColumnOptions.ofJson
  r.settle [fault name, fault type, fault options] [fault name, fault options, fault type]
  return { name := ← required name, type := ← required type, options := ← orElse options {} }

/-- A table of a record's parts; its names are checked when all of them are read. -/
def Table.ofRecord (r : Record Json) : Except FormFault Table := do
  let name := r.part 0 "name" Json.asString
  let columns := r.part 1 "columns" fun j => do (← j.asArray).mapM Column.ofJson
  r.settle [fault name, fault columns] [fault columns, fault name]
  (Table.checked (← required name) (← required columns)).mapError .badName

def Table.ofJson (j : Json) : Except FormFault Table := do Table.ofRecord (← j.record)

/-- An alias of a record's parts. -/
def Alias.ofRecord (r : Record Json) : Except FormFault Alias := do
  let table := r.part 0 "table" Table.ofJson
  let name := r.part 1 "name" Json.asString
  r.settle [fault table, fault name] [fault name, fault table]
  (Alias.checked (← required table) (← required name)).mapError .badName

/-! ### Kinds -/

/-- A kind out of a list, by name or by its number in the list. -/
def kindOf (kinds : List String) : Json → Except FormFault String
  | .string s => if s ∈ kinds then .ok s else .error .shape
  | .int n =>
    match if 0 ≤ n then kinds[n.toNat]? else none with
    | some kind => .ok kind
    | none => .error .shape
  | _ => .error .shape

/-- The kind of a node and its parts: a member `kind`, or the first item. -/
def taggedParts (json : α → Json) (kinds : List String) (r : Record α) :
    Except FormFault (String × Record α) :=
  match r with
  | .named members =>
    match members.find? fun m => decide (m.1 = "kind") with
    | some (_, tag) => do
      return (← kindOf kinds (json tag), .named (members.filter fun m => decide (m.1 ≠ "kind")))
    | none => .error .shape
  | .ordered (tag :: items) => do return (← kindOf kinds (json tag), .ordered items)
  | .ordered [] => .error .shape

def Source.ofJson (j : Json) : Except FormFault Source := do
  match ← taggedParts id ["Table", "Alias"] (← j.record) with
  | ("Table", r) => return .table (← Table.ofRecord r)
  | (_, r) => return .aliased (← Alias.ofRecord r)

def ColumnRef.ofRecord (r : Record Json) : Except FormFault ColumnRef := do
  let name := r.part 0 "name" Json.asString
  let source := r.part 1 "table" (Json.asOption Source.ofJson)
  let qualifier := r.part 2 "qualifier" (Json.asOption Json.asString)
  r.settle [fault name, fault source, fault qualifier] [fault name, fault qualifier, fault source]
  return {
    name := ← required name, source := ← orElse source none,
    qualifier := ← orElse qualifier none }

/-! ### Parts of statements -/

/-- A column and its value, as an array of the two. -/
def valueOfJson : Json → Except FormFault (String × Scalar)
  | .array [c, v] => do return (← c.asString, ← v.asScalar)
  | _ => .error .shape

def valuesOfJson (j : Json) : Except FormFault (Option (List (String × Scalar))) :=
  j.asOption fun j => do (← j.asArray).mapM valueOfJson

def countOfJson (j : Json) : Except FormFault (Option UInt64) :=
  j.asOption fun j => do return UInt64.ofNat (← j.asNat (Nat.pow 2 64))

namespace Clause

/-- What a document is when read as a part of a clause, for each sort of part. -/
structure Reading where
  json : Json
  clause : Except FormFault Clause
  clauses : Except FormFault (List Clause)
  order : Except FormFault (OrderTerms Clause)

namespace Reading

/-- A clause or `null`. -/
def optional (x : Reading) : Except FormFault (Option Clause) :=
  match x.json with
  | .null => .ok none
  | _ => x.clause.map some

/-- Terms to order by or `null`. -/
def optionalOrder (x : Reading) : Except FormFault (Option (OrderTerms Clause)) :=
  match x.json with
  | .null => .ok none
  | _ => x.order.map some

/-- Members and a separator. -/
def orderOf (r : Record Reading) : Except FormFault (OrderTerms Clause) := do
  let terms := r.part 0 "clauses" Reading.clauses
  let separator := r.part 1 "separator" (Json.asString ·.json)
  r.settle [fault terms, fault separator] [fault terms, fault separator]
  return ⟨← required terms, ← required separator⟩

end Reading

/-- The parts as plain documents. -/
def plainParts : Record Reading → Record Json
  | .named members => .named (members.map fun m => (m.1, m.2.json))
  | .ordered items => .ordered (items.map Reading.json)

/-! ### Nodes -/

def ofBinary (r : Record Reading) : Except FormFault Clause := do
  let left := r.part 0 "left" Reading.clause
  let operator := r.part 1 "operator" (Operator.ofJson ·.json)
  let right := r.part 2 "right" Reading.clause
  r.settle [fault left, fault operator, fault right] [fault left, fault operator, fault right]
  return .binary (← required left) (← required operator) (← required right)

def ofUnary (r : Record Reading) : Except FormFault Clause := do
  let operand := r.part 0 "element" Reading.clause
  let operator := r.part 1 "operator" (Json.asOption Operator.ofJson ·.json)
  let modifier := r.part 2 "modifier" (Json.asOption Operator.ofJson ·.json)
  r.settle [fault operand, fault operator, fault modifier]
    [fault operand, fault modifier, fault operator]
  return .unary (← orElse operator none) (← required operand) (← orElse modifier none)

def ofJunction (r : Record Reading) : Except FormFault Clause := do
  let operator := r.part 0 "operator" (Operator.ofJson ·.json)
  let members := r.part 1 "expressions" Reading.clauses
  r.settle [fault operator, fault members] [fault members, fault operator]
  return .junction (← required operator) (← required members)

def ofGroup (r : Record Reading) : Except FormFault Clause := do
  let inner := r.part 0 "element" Reading.clause
  r.settle [fault inner] [fault inner]
  return .group (← required inner)

def ofBind (r : Record Reading) : Except FormFault Clause := do
  let key := r.part 0 "key" (Json.asString ·.json)
  let value := r.part 1 "value" (Json.asScalar ·.json)
  r.settle [fault key, fault value] [fault key, fault value]
  return .bind (← required key) (← required value)

/-- A node without parts; members of an object do not matter. -/
def ofNull : Record Reading → Except FormFault Clause
  | .named _ => .ok .null
  | .ordered [] => .ok .null
  | .ordered _ => .error .shape

def ofJoin (r : Record Reading) : Except FormFault Clause := do
  let left := r.part 0 "left" Reading.clause
  let right := r.part 1 "right" Reading.clause
  let on := r.part 2 "on_clause" Reading.clause
  let outer := r.part 3 "is_outer" (Json.asBool ·.json)
  r.settle [fault left, fault right, fault on, fault outer]
    [fault outer, fault left, fault on, fault right]
  return .join (← required left) (← required right) (← required on) (← orElse outer false)

def ofSelect (r : Record Reading) : Except FormFault Clause := do
  let columns := r.part 0 "columns" Reading.clauses
  let froms := r.part 1 "froms" Reading.clauses
  let condition := r.part 2 "where_clause" Reading.optional
  let order := r.part 3 "order_by_clause" Reading.optionalOrder
  let limit := r.part 4 "limit" (countOfJson ·.json)
  let offset := r.part 5 "offset" (countOfJson ·.json)
  let distinct := r.part 6 "distinct" (Json.asBool ·.json)
  r.settle
    [fault columns, fault froms, fault condition, fault order, fault limit, fault offset,
     fault distinct]
    [fault columns, fault distinct, fault froms, fault limit, fault offset, fault order,
     fault condition]
  return .select (← required columns) (← orElse froms []) (← orElse condition none)
    (← orElse order none) (← orElse limit none) (← orElse offset none) (← orElse distinct false)

def ofInsert (r : Record Reading) : Except FormFault Clause := do
  let table := r.part 0 "table" (Table.ofJson ·.json)
  let values := r.part 1 "values" (valuesOfJson ·.json)
  r.settle [fault table, fault values] [fault table, fault values]
  return .insert (← required table) (← orElse values none)

def ofUpdate (r : Record Reading) : Except FormFault Clause := do
  let table := r.part 0 "table" (Table.ofJson ·.json)
  let values := r.part 1 "values" (valuesOfJson ·.json)
  let condition := r.part 2 "where_clause" Reading.optional
  r.settle [fault table, fault values, fault condition]
    [fault table, fault values, fault condition]
  return .update (← required table) (← orElse values none) (← orElse condition none)

def ofDelete (r : Record Reading) : Except FormFault Clause := do
  let table := r.part 0 "table" (Table.ofJson ·.json)
  let condition := r.part 1 "where_clause" Reading.optional
  r.settle [fault table, fault condition] [fault table, fault condition]
  return .delete (← required table) (← orElse condition none)

def ofNamed (r : Record Json) : Except FormFault Clause := do
  let name := r.part 0 "name" Json.asString
  r.settle [fault name] [fault name]
  return .named (← required name)

/-- The node of a kind. -/
def ofParts (kind : String) (r : Record Reading) : Except FormFault Clause :=
  match kind with
  | "Table" => (Table.ofRecord (plainParts r)).map .table
  | "TableClause" => ofNamed (plainParts r)
  | "Alias" => (Alias.ofRecord (plainParts r)).map .aliased
  | "Column" => (ColumnRef.ofRecord (plainParts r)).map .column
  | "Expression" => ofBinary r
  | "UnaryExpression" => ofUnary r
  | "ExpressionList" => ofJunction r
  | "Grouping" => ofGroup r
  | "ClauseList" => (Reading.orderOf r).map fun o => .sequence o.terms o.separator
  | "BindParam" => ofBind r
  | "Null" => ofNull r
  | "Join" => ofJoin r
  | "Select" => ofSelect r
  | "Insert" => ofInsert r
  | "Update" => ofUpdate r
  | "Delete" => ofDelete r
  | _ => .error .shape

/-- The node of a tagged record. -/
def ofRecord (r : Record Reading) : Except FormFault Clause := do
  let (kind, parts) ← taggedParts Reading.json kinds r
  ofParts kind parts

mutual
/-- Reads a document in every way it may be part of a clause. -/
def read : Json → Reading
  | .object members =>
    let parts := readMembers members
    ⟨.object members, ofRecord (.named parts), .error .shape, Reading.orderOf (.named parts)⟩
  | .array items =>
    let parts := readItems items
    ⟨.array items, ofRecord (.ordered parts), parts.mapM Reading.clause,
      Reading.orderOf (.ordered parts)⟩
  | j => ⟨j, .error .shape, .error .shape, .error .shape⟩

def readItems : List Json → List Reading
  | [] => []
  | j :: js => read j :: readItems js

def readMembers : List (String × Json) → List (String × Reading)
  | [] => []
  | (key, j) :: ms => (key, read j) :: readMembers ms
end

/-- The kind of a whole document is a name, never a number. -/
def hasNumberedKind : Json → Bool
  | .object members =>
    match Json.member? members "kind" with
    | some (.int _) => true
    | _ => false
  | .array (.int _ :: _) => true
  | _ => false

/-- The clause of a document. -/
def ofJson (j : Json) : Except FormFault Clause :=
  if hasNumberedKind j then .error .shape else (read j).clause

/-! ### Loading -/

/-- The kind that an object's members give as text, if no clause has it. -/
def strangeKind (members : List (String × Json)) : Option String :=
  match Json.member? members "kind" with
  | some (.string kind) => if kind ∈ kinds then none else some kind
  | _ => none

mutual
/-- The first unknown kind: an object's own before those of its members, all in order. -/
def unknownKind : Json → Option String
  | .object members => (strangeKind members).or (unknownKindOfMembers members)
  | .array items => unknownKindOfItems items
  | _ => none

def unknownKindOfItems : List Json → Option String
  | [] => none
  | j :: js => (unknownKind j).or (unknownKindOfItems js)

def unknownKindOfMembers : List (String × Json) → Option String
  | [] => none
  | (_, j) :: ms => (unknownKind j).or (unknownKindOfMembers ms)
end

/-- The clause of a document whose kinds are all known. -/
def ofDocument (j : Json) : Except Error Clause :=
  match unknownKind j with
  | some kind => .error (.unknownKind kind)
  | none => (ofJson j).mapError .misshapen

/-- Loads a clause from the text of its document. -/
def load (text : String) : Except Error Clause := do ofDocument (← Json.parse text)

end Clause

end BoundSql
