import BoundSql.Clause.Decode
import BoundSql.Proofs.Json.Members
import BoundSql.Proofs.Schema.Normal
import BoundSql.Proofs.Schema.Table

/-!
# Tables from documents

The document of a table or an alias that can be declared is read as the table or alias in normal
form, whatever the order of the members.
-/

namespace BoundSql

open Record (fault required orElse)

/-! ### Parts -/

theorem member?_cons (key name : String) (j : Json) (ms : List (String × Json)) :
    Json.member? ((key, j) :: ms) name = if key = name then some j else Json.member? ms name := by
  by_cases hk : key = name <;> simp [Json.member?, hk]

theorem sorted_ofScalar (v : Scalar) : (Json.ofScalar v).sorted = Json.ofScalar v := by
  cases v with
  | float x => by_cases hx : x.isFinite = true <;> simp [Json.ofScalar, hx, Json.sorted]
  | _ => rfl

theorem asScalar_ofScalar (v : Scalar) : (Json.ofScalar v).sorted.asScalar = .ok v.normal := by
  rw [sorted_ofScalar, Json.asScalar, Scalar.scalar?_ofScalar]

theorem asOption_of_ne_null {β : Type} (decode : Json → Except FormFault β) (j : Json)
    (h : j ≠ .null) : Json.asOption decode j = (decode j).map some := by
  cases j with
  | null => exact absurd rfl h
  | _ => rfl

/-- What may be absent is read as absent or as what it is. -/
theorem asOption_ofOption {α β : Type} (encode : α → Json) (decode : Json → Except FormFault β)
    (g : α → β) (o : Option α)
    (h : ∀ x ∈ o, decode (encode x).sorted = .ok (g x) ∧ (encode x).sorted ≠ .null) :
    Json.asOption decode (Json.ofOption encode o).sorted = .ok (o.map g) := by
  cases o with
  | none => rfl
  | some x =>
    obtain ⟨hread, hne⟩ := h x rfl
    rw [Json.ofOption, asOption_of_ne_null decode _ hne, hread]
    rfl

theorem mapM_ok {α β γ : Type} (f : β → Except FormFault γ) (g : α → β) (k : α → γ) (xs : List α)
    (h : ∀ x ∈ xs, f (g x) = .ok (k x)) : (xs.map g).mapM f = .ok (xs.map k) := by
  induction xs with
  | nil => rfl
  | cons x xs ih =>
    obtain ⟨hx, hxs⟩ := List.forall_mem_cons.mp h
    rw [List.map_cons, List.mapM_cons, hx, ih hxs]
    rfl

theorem asNat_sorted (n bound : Nat) (h : n < bound) :
    Json.asNat bound (Json.int n).sorted = .ok n := by
  have hbounds : (0 : Int) ≤ n ∧ (n : Int) < bound := by omega
  show (if (0 : Int) ≤ n ∧ (n : Int) < bound then _ else _) = _
  rw [if_pos hbounds]
  rfl

/-! ### Columns -/

theorem Reference.ofJson_toJson (r : Reference) : Reference.ofJson r.toJson.sorted = .ok r := by
  obtain ⟨record, hrecord, hshows⟩ := Record.record_sorted
    [("table", .string r.table), ("column", .string r.column)] (by simp)
  have htable := hshows.part 0 "table" Json.asString rfl rfl
  have hcolumn := hshows.part 1 "column" Json.asString rfl rfl
  obtain ⟨members, rfl⟩ := hshows.named
  rw [Reference.ofJson, Reference.toJson, hrecord]
  simp only [bind, Except.bind, htable, hcolumn]
  rfl

theorem length_of_document (length : Option UInt32) :
    Json.asOption (Json.asNat (Nat.pow 2 32))
        (Json.ofOption (fun n : UInt32 => .int n.toNat) length).sorted
      = .ok (length.map UInt32.toNat) :=
  asOption_ofOption _ _ _ length fun n _ => ⟨asNat_sorted _ _ n.toNat_lt, by simp [Json.sorted]⟩

theorem reference_of_document (reference : Option Reference) :
    Json.asOption Reference.ofJson (Json.ofOption Reference.toJson reference).sorted
      = .ok reference := by
  have hread := asOption_ofOption Reference.toJson Reference.ofJson id reference
    fun r _ => ⟨r.ofJson_toJson, by simp [Reference.toJson, Json.sorted]⟩
  rwa [Option.map_id] at hread

/-- A default that is null in the document is none. -/
theorem default_of_document (default : Option Scalar) :
    Json.asOption Json.asScalar (Json.ofOption .ofScalar default).sorted
      = .ok (normalDefault default) := by
  cases default with
  | none => rfl
  | some v =>
    by_cases hnull : Json.ofScalar v = .null
    · have hv := v.ofScalar_eq_null.mp hnull
      simp [Json.ofOption, hnull, Json.sorted, Json.asOption, normalDefault, hv]
    · have hv : v.normal ≠ .null := mt v.ofScalar_eq_null.mpr hnull
      have hread := asScalar_ofScalar v
      rw [sorted_ofScalar] at hread
      rw [Json.ofOption, sorted_ofScalar, asOption_of_ne_null _ _ hnull, hread]
      simp [normalDefault, hv, Except.map]

theorem ColumnOptions.ofJson_toJson (o : ColumnOptions) :
    ColumnOptions.ofJson o.toJson.sorted = .ok { o with default := normalDefault o.default } := by
  obtain ⟨record, hrecord, hshows⟩ := Record.record_sorted
    [("length", .ofOption (fun n : UInt32 => .int n.toNat) o.length),
     ("nullable", .bool o.nullable), ("primary_key", .bool o.primaryKey),
     ("auto_increment", .bool o.autoIncrement),
     ("foreign_key", .ofOption Reference.toJson o.reference),
     ("default", .ofOption .ofScalar o.default)] (by simp)
  have hlength := hshows.part 0 "length" (Json.asOption (Json.asNat (Nat.pow 2 32))) rfl
    (length_of_document o.length)
  have hnullable := hshows.part 1 "nullable" Json.asBool rfl rfl
  have hprimaryKey := hshows.part 2 "primary_key" Json.asBool rfl rfl
  have hautoIncrement := hshows.part 3 "auto_increment" Json.asBool rfl rfl
  have hreference := hshows.part 4 "foreign_key" (Json.asOption Reference.ofJson) rfl
    (reference_of_document o.reference)
  have hdefault := hshows.part 5 "default" (Json.asOption Json.asScalar) rfl
    (default_of_document o.default)
  have hcount : (o.length.map UInt32.toNat).map UInt32.ofNat = o.length := by
    cases o.length <;> simp
  obtain ⟨members, rfl⟩ := hshows.named
  rw [ColumnOptions.ofJson, ColumnOptions.toJson, hrecord]
  simp only [bind, Except.bind, hlength, hnullable, hprimaryKey, hautoIncrement, hreference,
    hdefault]
  exact congrArg (fun length => Except.ok
    { o with length := length, default := normalDefault o.default }) hcount

theorem ColumnType.ofJson_name (t : ColumnType) :
    ColumnType.ofJson (Json.string t.name).sorted = .ok t := by
  cases t <;> rfl

theorem Column.ofJson_toJson (c : Column) : Column.ofJson c.toJson.sorted = .ok c.normal := by
  obtain ⟨record, hrecord, hshows⟩ := Record.record_sorted
    [("name", .string c.name), ("sql_type", .string c.type.name), ("options", c.options.toJson)]
    (by simp)
  have hname := hshows.part 0 "name" Json.asString rfl rfl
  have htype := hshows.part 1 "sql_type" ColumnType.ofJson rfl c.type.ofJson_name
  have hoptions := hshows.part 2 "options" ColumnOptions.ofJson rfl c.options.ofJson_toJson
  obtain ⟨members, rfl⟩ := hshows.named
  rw [Column.ofJson, Column.toJson, hrecord]
  simp only [bind, Except.bind, hname, htype, hoptions]
  rfl

/-! ### Tables and aliases -/

theorem asArray_map {α : Type} (encode : α → Json) (xs : List α) :
    (Json.array (xs.map encode)).sorted.asArray = .ok (xs.map fun x => (encode x).sorted) := by
  show Except.ok (Json.sortedItems _) = _
  rw [Json.sortedItems_eq_map, List.map_map]
  rfl

theorem columns_of_document (cs : List Column) :
    ((Json.array (cs.map Column.toJson)).sorted.asArray.bind fun items =>
      items.mapM Column.ofJson) = .ok (cs.map Column.normal) := by
  rw [asArray_map]
  exact mapM_ok Column.ofJson _ Column.normal cs fun c _ => c.ofJson_toJson

theorem Table.ofRecord_members (t : Table) (r : Record Json) (ht : t.WellFormed)
    (hr : r.Shows Json.sorted t.members) : Table.ofRecord r = .ok t.normal := by
  have hname := hr.part 0 "name" Json.asString rfl rfl
  have hcolumns := hr.part 1 "columns" (fun j => j.asArray.bind fun items =>
    items.mapM Column.ofJson) rfl (columns_of_document t.columns)
  have hchecked : Table.checked t.name t.normal.columns = .ok t.normal :=
    (Table.checked_eq_ok _ _ _).mpr ⟨rfl, t.wellFormed_normal.mpr ht⟩
  obtain ⟨members, rfl⟩ := hr.named
  simp only [Table.ofRecord, bind, hname, hcolumns]
  show (Table.checked t.name t.normal.columns).mapError _ = _
  rw [hchecked]
  rfl

theorem Table.ofJson_toJson (t : Table) (ht : t.WellFormed) :
    Table.ofJson t.toJson.sorted = .ok t.normal := by
  obtain ⟨r, hrecord, hshows⟩ := Record.record_sorted t.members (by simp [Table.members])
  rw [Table.ofJson, Table.toJson, hrecord]
  exact t.ofRecord_members r ht hshows

theorem Alias.ofRecord_members (a : Alias) (r : Record Json) (ht : a.table.WellFormed)
    (hname : isIdentifier a.name = true) (hr : r.Shows Json.sorted a.members) :
    Alias.ofRecord r = .ok (a.mapTable Table.normal) := by
  have htable := hr.part 0 "table" Table.ofJson rfl (a.table.ofJson_toJson ht)
  have hnamePart := hr.part 1 "name" Json.asString rfl rfl
  obtain ⟨members, rfl⟩ := hr.named
  simp only [Alias.ofRecord, bind, Except.bind, htable, hnamePart]
  show (Alias.checked a.table.normal a.name).mapError _ = _
  rw [Alias.checked, if_pos hname]
  rfl

/-! ### Kinds -/

theorem find?_filter_kind {α : Type} (members : List (String × α)) (name : String) :
    (members.filter fun m => decide (m.1 ≠ "kind")).find? (fun m => decide (m.1 = name))
      = if name = "kind" then none else members.find? fun m => decide (m.1 = name) := by
  rw [List.find?_filter]
  by_cases hname : name = "kind"
  · rw [if_pos hname, List.find?_eq_none]
    intro m _
    by_cases hm : m.1 = "kind" <;> simp [hm, hname]
  · rw [if_neg hname]
    congr 1
    funext m
    by_cases hm : m.1 = name <;> simp [hm, hname]

/-- A record with a kind is taken apart into the kind and the other members. -/
theorem taggedParts_of_shows {α : Type} (json : α → Json) (kinds : List String)
    (r : Record α) (f : Json → α) (kind : String) (ms : List (String × Json))
    (hjson : json (f (.string kind)) = .string kind) (hkind : kind ∈ kinds)
    (hms : "kind" ∉ ms.map (·.1)) (hr : r.Shows f (("kind", .string kind) :: ms)) :
    ∃ parts, taggedParts json kinds r = .ok (kind, parts) ∧ parts.Shows f ms := by
  obtain ⟨members, rfl⟩ := hr.named
  have htag := hr.field 0 "kind"
  rw [member?_cons, if_pos rfl, Record.field?, Option.map_some, Option.map_eq_some_iff] at htag
  obtain ⟨⟨key, tag⟩, hfind, rfl⟩ := htag
  refine ⟨.named (members.filter fun m => decide (m.1 ≠ "kind")), ?_, ⟨_, rfl⟩, ?_⟩
  · simp only [taggedParts, hfind, hjson, kindOf, hkind, ite_true]
    rfl
  · intro index name
    rw [Record.field?, find?_filter_kind]
    by_cases hname : name = "kind"
    · have hnone : Json.member? ms name = none := by
        rw [Json.member?, Option.map_eq_none_iff, List.find?_eq_none]
        intro m hm
        have hne : m.1 ≠ name := fun he => hms (hname ▸ he ▸ List.mem_map_of_mem hm)
        simpa using hne
      rw [if_pos hname, hnone]
      rfl
    · have hfield := hr.field index name
      rw [member?_cons, if_neg (Ne.symm hname)] at hfield
      rw [if_neg hname]
      exact hfield

/-! ### Sources -/

/-- The source could have been declared: its table is well-formed, and an alias is an
identifier. -/
def Source.Declared : Source → Prop
  | .table t => t.WellFormed
  | .aliased a => a.table.WellFormed ∧ isIdentifier a.name = true

instance (t : Table) : Decidable t.WellFormed := inferInstanceAs (Decidable (_ ∧ _ ∧ _))

instance : DecidablePred Source.Declared
  | .table t => inferInstanceAs (Decidable t.WellFormed)
  | .aliased a => inferInstanceAs (Decidable (a.table.WellFormed ∧ isIdentifier a.name = true))

theorem Source.ofJson_toJson (s : Source) (hs : s.Declared) :
    Source.ofJson s.toJson.sorted = .ok (s.mapTable Table.normal) := by
  cases s with
  | table t =>
    obtain ⟨r, hrecord, hshows⟩ := Record.record_sorted
      (("kind", .string "Table") :: t.members) (by simp [Table.members])
    obtain ⟨parts, hparts, hshowsParts⟩ := taggedParts_of_shows id ["Table", "Alias"] r
      Json.sorted "Table" t.members rfl (by simp) (by simp [Table.members]) hshows
    rw [Source.ofJson, Source.toJson, hrecord]
    simp only [bind, Except.bind, hparts]
    rw [t.ofRecord_members parts hs hshowsParts]
    rfl
  | aliased a =>
    obtain ⟨r, hrecord, hshows⟩ := Record.record_sorted
      (("kind", .string "Alias") :: a.members) (by simp [Alias.members])
    obtain ⟨parts, hparts, hshowsParts⟩ := taggedParts_of_shows id ["Table", "Alias"] r
      Json.sorted "Alias" a.members rfl (by simp) (by simp [Alias.members]) hshows
    rw [Source.ofJson, Source.toJson, hrecord]
    simp only [bind, Except.bind, hparts]
    show (Alias.ofRecord parts).bind (fun a => .ok (Source.aliased a)) = _
    rw [a.ofRecord_members parts hs.1 hs.2 hshowsParts]
    rfl

theorem source_of_document (source : Option Source) (hs : ∀ s ∈ source, s.Declared) :
    Json.asOption Source.ofJson (Json.ofOption Source.toJson source).sorted
      = .ok (source.map (Source.mapTable Table.normal)) :=
  asOption_ofOption Source.toJson Source.ofJson _ source fun s h =>
    ⟨s.ofJson_toJson (hs s h), by cases s <;> simp [Source.toJson, Json.sorted]⟩

theorem ColumnRef.ofRecord_members (c : ColumnRef) (r : Record Json)
    (hc : ∀ s ∈ c.source, s.Declared) (hr : r.Shows Json.sorted c.members) :
    ColumnRef.ofRecord r = .ok (c.mapTable Table.normal) := by
  have hname := hr.part 0 "name" Json.asString rfl rfl
  have hsource := hr.part 1 "table" (Json.asOption Source.ofJson) rfl
    (source_of_document c.source hc)
  obtain ⟨name, source, qualifier⟩ := c
  cases qualifier with
  | none =>
    have hqualifier := hr.part_none 2 "qualifier" (Json.asOption Json.asString) rfl
    obtain ⟨members, rfl⟩ := hr.named
    simp only [ColumnRef.ofRecord, bind, Except.bind, hname, hsource, hqualifier]
    rfl
  | some q =>
    have hqualifier := hr.part 2 "qualifier" (Json.asOption Json.asString) rfl rfl
    obtain ⟨members, rfl⟩ := hr.named
    simp only [ColumnRef.ofRecord, bind, Except.bind, hname, hsource, hqualifier]
    rfl

end BoundSql
