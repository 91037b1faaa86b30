import BoundSql.Proofs.Clause.Normal
import BoundSql.Proofs.Schema.Decoding

/-!
# Clauses from documents

The document of a clause is read as the clause in normal form when every source that it mentions
could have been declared.
-/

namespace BoundSql

theorem Operator.ofJson_toJson (o : Operator) : Operator.ofJson o.toJson.sorted = .ok o := by
  cases o <;> rfl

namespace Clause

open Record (fault required orElse)

/-! ### Readings -/

theorem readItems_eq_map (items : List Json) : readItems items = items.map read := by
  induction items with
  | nil => rfl
  | cons j js ih => rw [readItems, ih, List.map_cons]

theorem readMembers_eq_map (ms : List (String × Json)) :
    readMembers ms = ms.map fun m => (m.1, read m.2) := by
  induction ms with
  | nil => rfl
  | cons m ms ih =>
    obtain ⟨key, j⟩ := m
    rw [readMembers, ih, List.map_cons]

theorem json_read (j : Json) : (read j).json = j := by
  cases j <;> simp [read]

/-- The reading of a document whose members are in the order of their keys. -/
def readSorted (j : Json) : Reading := read j.sorted

theorem shows_readMembers (ms : List (String × Json)) (h : (ms.map (·.1)).Nodup) :
    (Record.named (readMembers (Json.sortedMembers ms))).Shows readSorted ms := by
  rw [readMembers_eq_map]
  exact Record.shows_sortedMembers read ms h

theorem shows_plainParts (r : Record Reading) (ms : List (String × Json))
    (hr : r.Shows readSorted ms) : (plainParts r).Shows Json.sorted ms := by
  obtain ⟨members, rfl⟩ := hr.named
  refine ⟨⟨_, rfl⟩, fun index name => ?_⟩
  rw [plainParts, Record.field?_map, hr.field, Option.map_map]
  congr 1
  funext j
  exact json_read j.sorted

/-- An object of a kind is read by the reader of that kind, from the other members. -/
theorem clause_of_tagged (kind : String) (ms : List (String × Json)) (c : Clause)
    (hkind : kind ∈ kinds) (hkeys : ("kind" :: ms.map (·.1)).Nodup)
    (h : ∀ r : Record Reading, r.Shows readSorted ms → ofParts kind r = .ok c) :
    (readSorted (tagged kind ms)).clause = .ok c := by
  have hshows := shows_readMembers (("kind", .string kind) :: ms) hkeys
  obtain ⟨parts, hparts, hshowsParts⟩ := taggedParts_of_shows Reading.json kinds _ readSorted kind
    ms rfl hkind (List.nodup_cons.mp hkeys).1 hshows
  have hclause : (readSorted (tagged kind ms)).clause
      = ofRecord (.named (readMembers (Json.sortedMembers (("kind", .string kind) :: ms)))) := rfl
  rw [hclause, ofRecord]
  simp only [hparts]
  exact h parts hshowsParts

/-! ### Parts of statements -/

theorem toJson_eq_tagged (c : Clause) : ∃ ms, c.toJson = tagged c.kind ms := by
  cases c <;> exact ⟨_, rfl⟩

theorem toJsonAll_eq_map (cs : List Clause) : toJsonAll cs = cs.map toJson := by
  induction cs with
  | nil => rfl
  | cons c cs ih => rw [toJsonAll, ih, List.map_cons]

/-- Reading the document of the clause gives its normal form. -/
def ReadsAsNormal (c : Clause) : Prop := (readSorted c.toJson).clause = .ok c.normal

theorem clauses_of_document (cs : List Clause) (h : ∀ c ∈ cs, c.ReadsAsNormal) :
    (readSorted (.array (toJsonAll cs))).clauses = .ok (cs.map normal) := by
  have hclauses : (readSorted (.array (toJsonAll cs))).clauses
      = (readItems (Json.sortedItems (toJsonAll cs))).mapM Reading.clause := rfl
  rw [hclauses, readItems_eq_map, Json.sortedItems_eq_map, toJsonAll_eq_map, List.map_map,
    List.map_map]
  exact mapM_ok Reading.clause _ normal cs h

theorem condition_of_document (condition : Option Clause)
    (h : ∀ c ∈ condition, c.ReadsAsNormal) :
    (readSorted (toJsonOption condition)).optional = .ok (condition.map normal) := by
  cases condition with
  | none => rfl
  | some c =>
    obtain ⟨ms, hms⟩ := c.toJson_eq_tagged
    have hclause := h c rfl
    rw [ReadsAsNormal] at hclause
    have hoptional : (readSorted c.toJson).optional = (readSorted c.toJson).clause.map some := by
      rw [hms]
      rfl
    rw [toJsonOption, hoptional, hclause]
    rfl

theorem orderOf_of_shows (terms : List Clause) (separator : String) (r : Record Reading)
    (h : ∀ c ∈ terms, c.ReadsAsNormal)
    (hr : r.Shows readSorted
      [("clauses", .array (toJsonAll terms)), ("separator", .string separator)]) :
    Reading.orderOf r = .ok ⟨terms.map normal, separator⟩ := by
  have hterms := hr.part 0 "clauses" Reading.clauses rfl (clauses_of_document terms h)
  have hseparator := hr.part 1 "separator" (Json.asString ·.json) rfl rfl
  obtain ⟨members, rfl⟩ := hr.named
  simp only [Reading.orderOf, hterms, hseparator]
  rfl

theorem order_of_document (order : Option (OrderTerms Clause))
    (h : ∀ o ∈ order, ∀ c ∈ OrderTerms.terms o, c.ReadsAsNormal) :
    (readSorted (toJsonOrder order)).optionalOrder = .ok (order.map normalOrder) := by
  cases order with
  | none => rfl
  | some o =>
    have hshows := shows_readMembers
      [("clauses", .array (toJsonAll o.terms)), ("separator", .string o.separator)] (by simp)
    have horder := orderOf_of_shows o.terms o.separator _ (h o rfl) hshows
    have hoptional : (readSorted (toJsonOrder (some o))).optionalOrder
        = (Reading.orderOf (.named (readMembers (Json.sortedMembers
          [("clauses", .array (toJsonAll o.terms)), ("separator", .string o.separator)])))).map
            some := rfl
    rw [hoptional, horder]
    rfl

theorem values_of_document (values : Option (List (String × Scalar))) :
    valuesOfJson (valuesJson values).sorted = .ok (values.map (mapRow Scalar.normal)) := by
  refine asOption_ofOption _ _ (mapRow Scalar.normal) values fun row _ => ⟨?_, by simp [Json.sorted]⟩
  have hpair (e : String × Scalar) : valueOfJson
      (Json.array [.string e.1, .ofScalar e.2]).sorted = .ok (e.1, e.2.normal) := by
    show (do return (e.1, ← (Json.ofScalar e.2).sorted.asScalar)) = _
    rw [asScalar_ofScalar]
    rfl
  rw [asArray_map]
  exact mapM_ok valueOfJson _ _ row fun e _ => hpair e

theorem count_of_document (count : Option UInt64) :
    countOfJson (countJson count).sorted = .ok count := by
  have hread := asOption_ofOption (fun n : UInt64 => Json.int n.toNat)
    (fun j => do return UInt64.ofNat (← j.asNat (Nat.pow 2 64))) id count fun n _ => by
      refine ⟨?_, by simp [Json.sorted]⟩
      show (do return UInt64.ofNat (← Json.asNat _ (Json.int n.toNat).sorted)) = _
      rw [asNat_sorted n.toNat _ n.toNat_lt]
      exact congrArg Except.ok (UInt64.ofNat_toNat)
  rwa [Option.map_id] at hread

theorem modifier_of_document (o : Option Operator) :
    Json.asOption Operator.ofJson (Json.ofOption Operator.toJson o).sorted = .ok o := by
  have hread := asOption_ofOption Operator.toJson Operator.ofJson id o fun o _ =>
    ⟨o.ofJson_toJson, by cases o <;> simp [Operator.toJson, Json.sorted]⟩
  rwa [Option.map_id] at hread

/-! ### Nodes -/

theorem ofNamed_of_shows (name : String) (r : Record Json)
    (hr : r.Shows Json.sorted [("name", .string name)]) : ofNamed r = .ok (.named name) := by
  have hname := hr.part 0 "name" Json.asString rfl rfl
  obtain ⟨members, rfl⟩ := hr.named
  simp only [ofNamed, hname]
  rfl

theorem ofBinary_of_shows (left right : Clause) (o : Operator) (r : Record Reading)
    (hleft : left.ReadsAsNormal) (hright : right.ReadsAsNormal)
    (hr : r.Shows readSorted
      [("left", left.toJson), ("operator", o.toJson), ("right", right.toJson)]) :
    ofBinary r = .ok (.binary left.normal o right.normal) := by
  have hl := hr.part 0 "left" Reading.clause rfl hleft
  have ho := hr.part 1 "operator" (Operator.ofJson ·.json) rfl
    ((congrArg Operator.ofJson (json_read _)).trans o.ofJson_toJson)
  have hrgt := hr.part 2 "right" Reading.clause rfl hright
  obtain ⟨members, rfl⟩ := hr.named
  simp only [ofBinary, hl, ho, hrgt]
  rfl

theorem ofUnary_of_shows (c : Clause) (o m : Option Operator) (r : Record Reading)
    (hc : c.ReadsAsNormal)
    (hr : r.Shows readSorted
      [("element", c.toJson), ("operator", .ofOption Operator.toJson o),
       ("modifier", .ofOption Operator.toJson m)]) :
    ofUnary r = .ok (.unary o c.normal m) := by
  have hoperand := hr.part 0 "element" Reading.clause rfl hc
  have ho := hr.part 1 "operator" (Json.asOption Operator.ofJson ·.json) rfl
    ((congrArg (Json.asOption Operator.ofJson) (json_read _)).trans (modifier_of_document o))
  have hm := hr.part 2 "modifier" (Json.asOption Operator.ofJson ·.json) rfl
    ((congrArg (Json.asOption Operator.ofJson) (json_read _)).trans (modifier_of_document m))
  obtain ⟨members, rfl⟩ := hr.named
  simp only [ofUnary, hoperand, ho, hm]
  rfl

theorem ofJunction_of_shows (o : Operator) (cs : List Clause) (r : Record Reading)
    (hcs : ∀ c ∈ cs, c.ReadsAsNormal)
    (hr : r.Shows readSorted
      [("operator", o.toJson), ("expressions", .array (toJsonAll cs))]) :
    ofJunction r = .ok (.junction o (cs.map normal)) := by
  have ho := hr.part 0 "operator" (Operator.ofJson ·.json) rfl
    ((congrArg Operator.ofJson (json_read _)).trans o.ofJson_toJson)
  have hmembers := hr.part 1 "expressions" Reading.clauses rfl (clauses_of_document cs hcs)
  obtain ⟨members, rfl⟩ := hr.named
  simp only [ofJunction, ho, hmembers]
  rfl

theorem ofGroup_of_shows (c : Clause) (r : Record Reading) (hc : c.ReadsAsNormal)
    (hr : r.Shows readSorted [("element", c.toJson)]) : ofGroup r = .ok (.group c.normal) := by
  have hinner := hr.part 0 "element" Reading.clause rfl hc
  obtain ⟨members, rfl⟩ := hr.named
  simp only [ofGroup, hinner]
  rfl

theorem ofBind_of_shows (key : String) (v : Scalar) (r : Record Reading)
    (hr : r.Shows readSorted [("key", .string key), ("value", .ofScalar v)]) :
    ofBind r = .ok (.bind key v.normal) := by
  have hkey := hr.part 0 "key" (Json.asString ·.json) rfl rfl
  have hvalue := hr.part 1 "value" (Json.asScalar ·.json) rfl
    ((congrArg Json.asScalar (json_read _)).trans (asScalar_ofScalar v))
  obtain ⟨members, rfl⟩ := hr.named
  simp only [ofBind, hkey, hvalue]
  rfl

theorem ofJoin_of_shows (left right on : Clause) (outer : Bool) (r : Record Reading)
    (hleft : left.ReadsAsNormal) (hright : right.ReadsAsNormal) (hon : on.ReadsAsNormal)
    (hr : r.Shows readSorted
      [("left", left.toJson), ("right", right.toJson), ("on_clause", on.toJson),
       ("is_outer", .bool outer)]) :
    ofJoin r = .ok (.join left.normal right.normal on.normal outer) := by
  have hl := hr.part 0 "left" Reading.clause rfl hleft
  have hrgt := hr.part 1 "right" Reading.clause rfl hright
  have ho := hr.part 2 "on_clause" Reading.clause rfl hon
  have houter := hr.part 3 "is_outer" (Json.asBool ·.json) rfl rfl
  obtain ⟨members, rfl⟩ := hr.named
  simp only [ofJoin, hl, hrgt, ho, houter]
  rfl

theorem ofSelect_of_shows (columns froms : List Clause) (condition : Option Clause)
    (order : Option (OrderTerms Clause)) (limit offset : Option UInt64) (distinct : Bool)
    (r : Record Reading) (hcolumns : ∀ c ∈ columns, c.ReadsAsNormal)
    (hfroms : ∀ c ∈ froms, c.ReadsAsNormal) (hcondition : ∀ c ∈ condition, c.ReadsAsNormal)
    (horder : ∀ o ∈ order, ∀ c ∈ OrderTerms.terms o, c.ReadsAsNormal)
    (hr : r.Shows readSorted
      [("columns", .array (toJsonAll columns)), ("froms", .array (toJsonAll froms)),
       ("where_clause", toJsonOption condition), ("order_by_clause", toJsonOrder order),
       ("limit", countJson limit), ("offset", countJson offset), ("distinct", .bool distinct)]) :
    ofSelect r = .ok (.select (columns.map normal) (froms.map normal) (condition.map normal)
      (order.map normalOrder) limit offset distinct) := by
  have hc := hr.part 0 "columns" Reading.clauses rfl (clauses_of_document columns hcolumns)
  have hf := hr.part 1 "froms" Reading.clauses rfl (clauses_of_document froms hfroms)
  have hw := hr.part 2 "where_clause" Reading.optional rfl
    (condition_of_document condition hcondition)
  have ho := hr.part 3 "order_by_clause" Reading.optionalOrder rfl (order_of_document order horder)
  have hlimit := hr.part 4 "limit" (countOfJson ·.json) rfl
    ((congrArg countOfJson (json_read _)).trans (count_of_document limit))
  have hoffset := hr.part 5 "offset" (countOfJson ·.json) rfl
    ((congrArg countOfJson (json_read _)).trans (count_of_document offset))
  have hdistinct := hr.part 6 "distinct" (Json.asBool ·.json) rfl rfl
  obtain ⟨members, rfl⟩ := hr.named
  simp only [ofSelect, hc, hf, hw, ho, hlimit, hoffset, hdistinct]
  rfl

theorem ofInsert_of_shows (t : Table) (values : Option (List (String × Scalar)))
    (r : Record Reading) (ht : t.WellFormed)
    (hr : r.Shows readSorted [("table", t.toJson), ("values", valuesJson values)]) :
    ofInsert r = .ok (.insert t.normal (values.map (mapRow Scalar.normal))) := by
  have htable := hr.part 0 "table" (Table.ofJson ·.json) rfl
    ((congrArg Table.ofJson (json_read _)).trans (t.ofJson_toJson ht))
  have hvalues := hr.part 1 "values" (valuesOfJson ·.json) rfl
    ((congrArg valuesOfJson (json_read _)).trans (values_of_document values))
  obtain ⟨members, rfl⟩ := hr.named
  simp only [ofInsert, htable, hvalues]
  rfl

theorem ofUpdate_of_shows (t : Table) (values : Option (List (String × Scalar)))
    (condition : Option Clause) (r : Record Reading) (ht : t.WellFormed)
    (hcondition : ∀ c ∈ condition, c.ReadsAsNormal)
    (hr : r.Shows readSorted
      [("table", t.toJson), ("values", valuesJson values),
       ("where_clause", toJsonOption condition)]) :
    ofUpdate r
      = .ok (.update t.normal (values.map (mapRow Scalar.normal)) (condition.map normal)) := by
  have htable := hr.part 0 "table" (Table.ofJson ·.json) rfl
    ((congrArg Table.ofJson (json_read _)).trans (t.ofJson_toJson ht))
  have hvalues := hr.part 1 "values" (valuesOfJson ·.json) rfl
    ((congrArg valuesOfJson (json_read _)).trans (values_of_document values))
  have hw := hr.part 2 "where_clause" Reading.optional rfl
    (condition_of_document condition hcondition)
  obtain ⟨members, rfl⟩ := hr.named
  simp only [ofUpdate, htable, hvalues, hw]
  rfl

theorem ofDelete_of_shows (t : Table) (condition : Option Clause) (r : Record Reading)
    (ht : t.WellFormed) (hcondition : ∀ c ∈ condition, c.ReadsAsNormal)
    (hr : r.Shows readSorted [("table", t.toJson), ("where_clause", toJsonOption condition)]) :
    ofDelete r = .ok (.delete t.normal (condition.map normal)) := by
  have htable := hr.part 0 "table" (Table.ofJson ·.json) rfl
    ((congrArg Table.ofJson (json_read _)).trans (t.ofJson_toJson ht))
  have hw := hr.part 1 "where_clause" Reading.optional rfl
    (condition_of_document condition hcondition)
  obtain ⟨members, rfl⟩ := hr.named
  simp only [ofDelete, htable, hw]
  rfl

/-! ### Clauses -/

/-- The document of a clause is read as its normal form. -/
theorem readsAsNormal (c : Clause) (hc : ∀ e ∈ c.nodes, ∀ s ∈ e.ownSources, s.Declared) :
    c.ReadsAsNormal := by
  induction c using Clause.induct_children with
  | step c ih =>
    rw [forall_nodes] at hc
    obtain ⟨hown, hbelow⟩ := hc
    have hchildren : ∀ d ∈ c.children, d.ReadsAsNormal := fun d hd => ih d hd (hbelow d hd)
    have hkind := c.kind_mem_kinds
    cases c with
    | table t =>
      refine clause_of_tagged _ _ _ hkind (by simp [Table.members]) fun r hr => ?_
      have hread := t.ofRecord_members _ (hown _ (List.mem_singleton.mpr rfl))
        (shows_plainParts r _ hr)
      exact congrArg (Except.map Clause.table) hread
    | named name =>
      refine clause_of_tagged _ _ _ hkind (by simp) fun r hr => ?_
      exact ofNamed_of_shows name _ (shows_plainParts r _ hr)
    | aliased a =>
      refine clause_of_tagged _ _ _ hkind (by simp [Alias.members]) fun r hr => ?_
      obtain ⟨ht, hname⟩ := hown _ (List.mem_singleton.mpr rfl)
      have hread := a.ofRecord_members _ ht hname (shows_plainParts r _ hr)
      exact congrArg (Except.map Clause.aliased) hread
    | column s =>
      have hkeys : ("kind" :: s.members.map (·.1)).Nodup := by
        unfold ColumnRef.members
        cases s.qualifier <;> simp
      refine clause_of_tagged _ _ _ hkind hkeys fun r hr => ?_
      have hread := s.ofRecord_members _ (fun t ht => hown t (Option.mem_toList.mpr ht))
        (shows_plainParts r _ hr)
      exact congrArg (Except.map Clause.column) hread
    | null =>
      refine clause_of_tagged _ _ _ hkind (by simp) fun r hr => ?_
      obtain ⟨members, rfl⟩ := hr.named
      rfl
    | bind key v => exact clause_of_tagged _ _ _ hkind (by simp) fun r => ofBind_of_shows key v r
    | binary l o r =>
      exact clause_of_tagged _ _ _ hkind (by simp) fun record =>
        ofBinary_of_shows l r o record (hchildren l (by simp [children]))
          (hchildren r (by simp [children]))
    | unary o e m =>
      exact clause_of_tagged _ _ _ hkind (by simp) fun r =>
        ofUnary_of_shows e o m r (hchildren e (List.mem_singleton.mpr rfl))
    | junction o cs =>
      rw [ReadsAsNormal, normal_junction]
      exact clause_of_tagged _ _ _ hkind (by simp) fun r => ofJunction_of_shows o cs r hchildren
    | group e =>
      exact clause_of_tagged _ _ _ hkind (by simp) fun r =>
        ofGroup_of_shows e r (hchildren e (List.mem_singleton.mpr rfl))
    | sequence cs separator =>
      rw [ReadsAsNormal, normal_sequence]
      refine clause_of_tagged _ _ _ hkind (by simp) fun r hr => ?_
      have hread := orderOf_of_shows cs separator r hchildren hr
      exact congrArg (Except.map fun o => Clause.sequence o.terms o.separator) hread
    | join l r on outer =>
      exact clause_of_tagged _ _ _ hkind (by simp) fun record =>
        ofJoin_of_shows l r on outer record (hchildren l (by simp [children]))
          (hchildren r (by simp [children])) (hchildren on (by simp [children]))
    | select columns froms condition order limit offset distinct =>
      obtain ⟨hc, hf, hw, ho⟩ := (forall_children_select _ ..).mp hchildren
      rw [ReadsAsNormal, normal_select]
      exact clause_of_tagged _ _ _ hkind (by simp) fun r =>
        ofSelect_of_shows columns froms condition order limit offset distinct r hc hf hw ho
    | insert t values =>
      exact clause_of_tagged _ _ _ hkind (by simp) fun r =>
        ofInsert_of_shows t values r (hown _ (List.mem_singleton.mpr rfl))
    | update t values condition =>
      rw [ReadsAsNormal, normal_update]
      exact clause_of_tagged _ _ _ hkind (by simp) fun r =>
        ofUpdate_of_shows t values condition r (hown _ (List.mem_singleton.mpr rfl))
          fun d hd => hchildren d (Option.mem_toList.mpr hd)
    | delete t condition =>
      rw [ReadsAsNormal, normal_delete]
      exact clause_of_tagged _ _ _ hkind (by simp) fun r =>
        ofDelete_of_shows t condition r (hown _ (List.mem_singleton.mpr rfl))
          fun d hd => hchildren d (Option.mem_toList.mpr hd)

end Clause

end BoundSql
