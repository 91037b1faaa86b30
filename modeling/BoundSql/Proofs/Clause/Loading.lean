import BoundSql.Proofs.Clause.Decoding
import BoundSql.Proofs.Clause.Selecting
import BoundSql.Proofs.Json.Fields

/-!
# What a loaded clause mentions

Every table and alias of a clause that was loaded has passed the checks of its declaration,
wherever in the document it stood: each reader of a table or an alias checks it, and the reader of
a clause puts together what was read from its parts.
-/

namespace BoundSql

/-! ### Tables, aliases and columns -/

theorem Table.wellFormed_of_ofRecord (r : Record Json) (t : Table)
    (h : Table.ofRecord r = .ok t) : t.WellFormed := by
  simp only [Table.ofRecord, bind_eq_ok, mapError_eq_ok] at h
  obtain ⟨_, _, name, _, columns, _, hchecked⟩ := h
  exact ((Table.checked_eq_ok name columns t).mp hchecked).2

theorem Table.wellFormed_of_ofJson (j : Json) (t : Table) (h : Table.ofJson j = .ok t) :
    t.WellFormed := by
  simp only [Table.ofJson, bind_eq_ok] at h
  obtain ⟨r, _, hr⟩ := h
  exact Table.wellFormed_of_ofRecord r t hr

theorem Alias.checked_eq_ok (t : Table) (name : String) (a : Alias) :
    Alias.checked t name = .ok a ↔ a = ⟨t, name⟩ ∧ isIdentifier name = true := by
  rw [Alias.checked]
  split
  · next hname => simp [hname, eq_comm]
  · next hname => simp [hname]

theorem Alias.declared_of_ofRecord (r : Record Json) (a : Alias)
    (h : Alias.ofRecord r = .ok a) : (Source.aliased a).Declared := by
  simp only [Alias.ofRecord, bind_eq_ok, mapError_eq_ok, Alias.checked_eq_ok] at h
  obtain ⟨_, _, t, ht, name, _, rfl, hname⟩ := h
  obtain ⟨j, _, hj⟩ := r.required_eq_ok 0 "table" Table.ofJson t ht
  exact ⟨Table.wellFormed_of_ofJson j t hj, hname⟩

theorem Source.declared_of_ofJson (j : Json) (s : Source) (h : Source.ofJson j = .ok s) :
    s.Declared := by
  simp only [Source.ofJson, bind_eq_ok] at h
  obtain ⟨r, _, ⟨kind, parts⟩, _, hs⟩ := h
  split at hs
  · simp only [bind_eq_ok, pure_eq_ok] at hs
    obtain ⟨t, ht, rfl⟩ := hs
    exact Table.wellFormed_of_ofRecord _ t ht
  · simp only [bind_eq_ok, pure_eq_ok] at hs
    obtain ⟨a, ha, rfl⟩ := hs
    exact Alias.declared_of_ofRecord _ a ha

theorem asOption_eq_some {β : Type} (decode : Json → Except FormFault β) (j : Json) (x : β)
    (h : j.asOption decode = .ok (some x)) : decode j = .ok x := by
  cases j with
  | null => cases h
  | _ =>
    obtain ⟨y, hy, he⟩ := (map_eq_ok _ _ _).mp h
    exact Option.some.inj he ▸ hy

theorem ColumnRef.declared_of_ofRecord (r : Record Json) (c : ColumnRef)
    (h : ColumnRef.ofRecord r = .ok c) : ∀ s ∈ c.source, s.Declared := by
  simp only [ColumnRef.ofRecord, bind_eq_ok, pure_eq_ok] at h
  obtain ⟨_, _, name, _, source, hsource, qualifier, _, rfl⟩ := h
  rintro s rfl
  rcases r.orElse_eq_ok 1 "table" _ none _ hsource with hnone | ⟨j, _, hj⟩
  · cases hnone
  · exact Source.declared_of_ofJson j s (asOption_eq_some _ j s hj)

theorem values_of_taggedParts {α : Type} (json : α → Json) (kinds : List String) (r : Record α)
    (kind : String) (parts : Record α) (h : taggedParts json kinds r = .ok (kind, parts)) :
    ∀ x ∈ parts.values, x ∈ r.values := by
  unfold taggedParts at h
  split at h
  · split at h
    · simp only [bind_eq_ok, pure_eq_ok] at h
      obtain ⟨_, _, he⟩ := h
      cases he
      exact fun x hx => (List.filter_sublist.map _).subset hx
    · cases h
  · simp only [bind_eq_ok, pure_eq_ok] at h
    obtain ⟨_, _, he⟩ := h
    cases he
    exact fun x hx => List.mem_cons_of_mem _ hx
  · cases h

namespace Clause

/-- Every table and alias that the clause mentions could have been declared. -/
def Declared (c : Clause) : Prop := ∀ s ∈ c.mentions, s.Declared

theorem declared_iff (c : Clause) :
    c.Declared ↔ (∀ s ∈ c.ownSources, s.Declared) ∧ ∀ d ∈ c.children, d.Declared := by
  simp only [Declared, mentions, List.forall_mem_flatMap]
  exact forall_nodes (fun d => ∀ s ∈ d.ownSources, s.Declared) c

theorem declared_leaf (c : Clause) (hchildren : c.children = [])
    (h : ∀ s ∈ c.ownSources, s.Declared) : c.Declared := by
  rw [declared_iff, hchildren]
  exact ⟨h, List.forall_mem_nil _⟩

theorem declared_inner (c : Clause) (hown : c.ownSources = [])
    (h : ∀ d ∈ c.children, d.Declared) : c.Declared := by
  rw [declared_iff, hown]
  exact ⟨List.forall_mem_nil _, h⟩

/-- Whatever the document is read as mentions only what could have been declared. -/
structure Reading.Sound (x : Reading) : Prop where
  clause : ∀ c, x.clause = .ok c → c.Declared
  clauses : ∀ cs, x.clauses = .ok cs → ∀ c ∈ cs, c.Declared
  order : ∀ o, x.order = .ok o → ∀ c ∈ OrderTerms.terms o, c.Declared

/-! ### Parts of a node -/

section Parts

open Record (required orElse)

variable {r : Record Reading} (hr : ∀ x ∈ r.values, x.Sound) (index : Nat) (name : String)

theorem declared_of_table (t : Table)
    (h : required (r.part index name fun x => Table.ofJson x.json) = .ok t) :
    ∀ s ∈ [Source.table t], s.Declared := by
  obtain ⟨x, _, hx⟩ := r.required_eq_ok index name _ t h
  exact List.forall_mem_singleton.mpr (Table.wellFormed_of_ofJson x.json t hx)

include hr

theorem declared_of_part (c : Clause) (h : required (r.part index name Reading.clause) = .ok c) :
    c.Declared := by
  obtain ⟨x, hx, hc⟩ := r.required_eq_ok index name Reading.clause c h
  exact (hr x hx).clause c hc

theorem declared_of_members (cs : List Clause)
    (h : required (r.part index name Reading.clauses) = .ok cs) : ∀ c ∈ cs, c.Declared := by
  obtain ⟨x, hx, hcs⟩ := r.required_eq_ok index name Reading.clauses cs h
  exact (hr x hx).clauses cs hcs

theorem declared_of_froms (cs : List Clause)
    (h : orElse (r.part index name Reading.clauses) [] = .ok cs) : ∀ c ∈ cs, c.Declared := by
  rcases r.orElse_eq_ok index name Reading.clauses [] cs h with rfl | ⟨x, hx, hcs⟩
  · exact List.forall_mem_nil _
  · exact (hr x hx).clauses cs hcs

theorem declared_of_condition (condition : Option Clause)
    (h : orElse (r.part index name Reading.optional) none = .ok condition) :
    ∀ c ∈ condition, c.Declared := by
  rintro c rfl
  rcases r.orElse_eq_ok index name Reading.optional none _ h with hnone | ⟨x, hx, hc⟩
  · cases hnone
  · rw [Reading.optional] at hc
    split at hc
    · cases hc
    · obtain ⟨d, hd, he⟩ := (map_eq_ok _ _ _).mp hc
      exact (hr x hx).clause c (Option.some.inj he ▸ hd)

theorem declared_of_order (order : Option (OrderTerms Clause))
    (h : orElse (r.part index name Reading.optionalOrder) none = .ok order) :
    ∀ o ∈ order, ∀ c ∈ OrderTerms.terms o, c.Declared := by
  rintro o rfl
  rcases r.orElse_eq_ok index name Reading.optionalOrder none _ h with hnone | ⟨x, hx, ho⟩
  · cases hnone
  · rw [Reading.optionalOrder] at ho
    split at ho
    · cases ho
    · obtain ⟨p, hp, he⟩ := (map_eq_ok _ _ _).mp ho
      exact (hr x hx).order o (Option.some.inj he ▸ hp)

end Parts

/-! ### Nodes -/

section Nodes

variable {r : Record Reading} (hr : ∀ x ∈ r.values, x.Sound) (c : Clause)

include hr

theorem declared_ofBinary (h : ofBinary r = .ok c) : c.Declared := by
  simp only [ofBinary, bind_eq_ok, pure_eq_ok] at h
  obtain ⟨_, _, left, hleft, operator, _, right, hright, rfl⟩ := h
  have hleft := declared_of_part hr _ _ left hleft
  have hright := declared_of_part hr _ _ right hright
  exact declared_inner _ rfl (by simpa [children] using ⟨hleft, hright⟩)

theorem declared_ofUnary (h : ofUnary r = .ok c) : c.Declared := by
  simp only [ofUnary, bind_eq_ok, pure_eq_ok] at h
  obtain ⟨_, _, operator, _, operand, hoperand, modifier, _, rfl⟩ := h
  have hoperand := declared_of_part hr _ _ operand hoperand
  exact declared_inner _ rfl (List.forall_mem_singleton.mpr hoperand)

theorem declared_ofJunction (h : ofJunction r = .ok c) : c.Declared := by
  simp only [ofJunction, bind_eq_ok, pure_eq_ok] at h
  obtain ⟨_, _, operator, _, members, hmembers, rfl⟩ := h
  exact declared_inner _ rfl (declared_of_members hr _ _ members hmembers)

theorem declared_ofGroup (h : ofGroup r = .ok c) : c.Declared := by
  simp only [ofGroup, bind_eq_ok, pure_eq_ok] at h
  obtain ⟨_, _, inner, hinner, rfl⟩ := h
  have hinner := declared_of_part hr _ _ inner hinner
  exact declared_inner _ rfl (List.forall_mem_singleton.mpr hinner)

theorem declared_orderOf (o : OrderTerms Clause) (h : Reading.orderOf r = .ok o) :
    ∀ c ∈ o.terms, c.Declared := by
  simp only [Reading.orderOf, bind_eq_ok, pure_eq_ok] at h
  obtain ⟨_, _, terms, hterms, separator, _, rfl⟩ := h
  exact declared_of_members hr _ _ terms hterms

theorem declared_ofJoin (h : ofJoin r = .ok c) : c.Declared := by
  simp only [ofJoin, bind_eq_ok, pure_eq_ok] at h
  obtain ⟨_, _, left, hleft, right, hright, on, hon, outer, _, rfl⟩ := h
  have hleft := declared_of_part hr _ _ left hleft
  have hright := declared_of_part hr _ _ right hright
  have hon := declared_of_part hr _ _ on hon
  exact declared_inner _ rfl (by simpa [children] using ⟨hleft, hright, hon⟩)

theorem declared_ofSelect (h : ofSelect r = .ok c) : c.Declared := by
  simp only [ofSelect, bind_eq_ok, pure_eq_ok] at h
  obtain ⟨_, _, columns, hcolumns, froms, hfroms, condition, hcondition, order, horder, limit, _,
    offset, _, distinct, _, rfl⟩ := h
  refine declared_inner _ rfl ((forall_children_select Declared ..).mpr ⟨?_, ?_, ?_, ?_⟩)
  · exact declared_of_members hr _ _ columns hcolumns
  · exact declared_of_froms hr _ _ froms hfroms
  · exact declared_of_condition hr _ _ condition hcondition
  · exact declared_of_order hr _ _ order horder

omit hr in
theorem declared_ofInsert (h : ofInsert r = .ok c) : c.Declared := by
  simp only [ofInsert, bind_eq_ok, pure_eq_ok] at h
  obtain ⟨_, _, t, ht, values, _, rfl⟩ := h
  exact declared_leaf _ rfl (declared_of_table _ _ t ht)

theorem declared_ofUpdate (h : ofUpdate r = .ok c) : c.Declared := by
  simp only [ofUpdate, bind_eq_ok, pure_eq_ok] at h
  obtain ⟨_, _, t, ht, values, _, condition, hcondition, rfl⟩ := h
  refine (declared_iff _).mpr ⟨declared_of_table _ _ t ht, fun d hd => ?_⟩
  exact declared_of_condition hr _ _ condition hcondition d (Option.mem_toList.mp hd)

theorem declared_ofDelete (h : ofDelete r = .ok c) : c.Declared := by
  simp only [ofDelete, bind_eq_ok, pure_eq_ok] at h
  obtain ⟨_, _, t, ht, condition, hcondition, rfl⟩ := h
  refine (declared_iff _).mpr ⟨declared_of_table _ _ t ht, fun d hd => ?_⟩
  exact declared_of_condition hr _ _ condition hcondition d (Option.mem_toList.mp hd)

omit hr in
theorem declared_ofNull (h : ofNull r = .ok c) : c.Declared := by
  have hnull : c = .null := by
    unfold ofNull at h
    split at h <;> cases h <;> rfl
  rw [hnull]
  exact declared_leaf _ rfl (List.forall_mem_nil _)

theorem declared_ofParts (kind : String) (h : ofParts kind r = .ok c) : c.Declared := by
  unfold ofParts at h
  -- One case for every kind, in the order of `ofParts`, and one for any other text.
  split at h
  · obtain ⟨t, ht, rfl⟩ := (map_eq_ok _ _ _).mp h
    have hsource : (Source.table t).Declared := Table.wellFormed_of_ofRecord _ t ht
    exact declared_leaf _ rfl (List.forall_mem_singleton.mpr hsource)
  · simp only [ofNamed, bind_eq_ok, pure_eq_ok] at h
    obtain ⟨_, _, name, _, rfl⟩ := h
    exact declared_leaf _ rfl (List.forall_mem_nil _)
  · obtain ⟨a, ha, rfl⟩ := (map_eq_ok _ _ _).mp h
    have hsource := Alias.declared_of_ofRecord _ a ha
    exact declared_leaf _ rfl (List.forall_mem_singleton.mpr hsource)
  · obtain ⟨column, hcolumn, rfl⟩ := (map_eq_ok _ _ _).mp h
    have hsource := ColumnRef.declared_of_ofRecord _ column hcolumn
    exact declared_leaf _ rfl fun s hs => hsource s (Option.mem_toList.mp hs)
  · exact declared_ofBinary hr c h
  · exact declared_ofUnary hr c h
  · exact declared_ofJunction hr c h
  · exact declared_ofGroup hr c h
  · obtain ⟨o, ho, rfl⟩ := (map_eq_ok _ _ _).mp h
    exact declared_inner _ rfl (declared_orderOf hr o ho)
  · simp only [ofBind, bind_eq_ok, pure_eq_ok] at h
    obtain ⟨_, _, key, _, value, _, rfl⟩ := h
    exact declared_leaf _ rfl (List.forall_mem_nil _)
  · exact declared_ofNull c h
  · exact declared_ofJoin hr c h
  · exact declared_ofSelect hr c h
  · exact declared_ofInsert c h
  · exact declared_ofUpdate hr c h
  · exact declared_ofDelete hr c h
  · cases h

theorem declared_ofRecord (h : ofRecord r = .ok c) : c.Declared := by
  simp only [ofRecord, bind_eq_ok] at h
  obtain ⟨⟨kind, parts⟩, htagged, hparts⟩ := h
  refine declared_ofParts (fun x hx => hr x ?_) c kind hparts
  exact values_of_taggedParts Reading.json kinds r kind parts htagged x hx

end Nodes

/-! ### Documents -/

theorem sound_read (j : Json) : (read j).Sound := by
  induction j using Json.induct with
  | array items ih =>
    have hparts : ∀ x ∈ (Record.ordered (readItems items)).values, x.Sound := by
      rw [Record.values, readItems_eq_map]
      exact List.forall_mem_map.mpr ih
    refine ⟨fun c => declared_ofRecord hparts c, fun cs hcs c hc => ?_,
      fun o => declared_orderOf hparts o⟩
    obtain ⟨x, hx, hread⟩ := of_mem_mapM Reading.clause _ cs hcs c hc
    exact (hparts x hx).clause c hread
  | object ms ih =>
    have hparts : ∀ x ∈ (Record.named (readMembers ms)).values, x.Sound := by
      rw [Record.values, readMembers_eq_map, List.map_map]
      exact List.forall_mem_map.mpr ih
    refine ⟨fun c => declared_ofRecord hparts c, fun cs h => ?_,
      fun o => declared_orderOf hparts o⟩
    cases h
  | _ => constructor <;> intro result h <;> cases h

theorem declared_of_load (text : String) (c : Clause) (h : load text = .ok c) : c.Declared := by
  simp only [load, bind_eq_ok] at h
  obtain ⟨j, _, hj⟩ := h
  rw [ofDocument] at hj
  split at hj
  · cases hj
  · rw [mapError_eq_ok, ofJson] at hj
    split at hj
    · cases hj
    · exact (sound_read j).clause c hj

/--
Every table that a loaded clause mentions, as a node, under an alias, behind a column, on either
side of a join or as the table of a statement, has a name that is not blank and columns with names,
no two the same. Every alias that it mentions is named by an ASCII letter or an underscore and then
letters, digits and underscores, and that is all that is written of it without quotes.
-/
theorem load_declares (text : String) (c : Clause) (h : load text = .ok c) :
    (∀ s ∈ c.mentions, s.base.WellFormed) ∧
      ∀ a, .aliased a ∈ c.mentions →
        (∃ first rest, a.name.toList = first :: rest ∧ (first.isAlpha ∨ first = '_') ∧
          ∀ ch ∈ rest, ch.isAlphanum ∨ ch = '_') ∧
        ∀ q, (Clause.aliased a).compile q
          = .ok ⟨q.quote a.table.name ++ " AS " ++ a.name, .empty⟩ := by
  have hdeclared := declared_of_load text c h
  constructor
  · intro s hs
    have hsource := hdeclared s hs
    cases s with
    | table t => exact hsource
    | aliased a => exact hsource.1
  · intro a ha
    have hname : isIdentifierText a.name.toList = true := (hdeclared _ ha).2
    refine ⟨?_, fun q => compile_source q (.aliased a)⟩
    cases hchars : a.name.toList with
    | nil =>
      rw [hchars] at hname
      cases hname
    | cons first rest =>
      rw [hchars] at hname
      simpa [isIdentifierText, isIdentifierStart, isIdentifierPart] using hname

/-- People joined to their bosses, with every record as an array. -/
def bossText : String :=
  "[\"Join\", [\"Table\", \"people\", []], [\"Alias\", [\"people\", []], \"boss_1\"], [\"Null\"]]"

theorem load_declares_bossText :
    let people : Table := ⟨"people", []⟩
    let boss : Alias := ⟨people, "boss_1"⟩
    let c : Clause := .join (.table people) (.aliased boss) .null false
    load bossText = .ok c ∧ people.WellFormed ∧
      (∃ first rest, boss.name.toList = first :: rest ∧ (first.isAlpha ∨ first = '_') ∧
        ∀ ch ∈ rest, ch.isAlphanum ∨ ch = '_') ∧
      (Clause.aliased boss).compile .plain = .ok ⟨"people AS boss_1", .empty⟩ := by
  intro people boss c
  have hparse : Json.parse bossText = .ok (.array [.string "Join",
      .array [.string "Table", .string "people", .array []],
      .array [.string "Alias", .array [.string "people", .array []], .string "boss_1"],
      .array [.string "Null"]]) := by cbv
  have hload : load bossText = .ok c := by
    rw [load, hparse]
    rfl
  obtain ⟨htables, haliases⟩ := load_declares bossText c hload
  obtain ⟨hname, hcompile⟩ := haliases boss (List.mem_cons_of_mem _ (List.mem_singleton_self _))
  have htext : Quoting.plain.quote people.name ++ " AS " ++ boss.name = "people AS boss_1" := by
    decide +kernel
  rw [← htext]
  exact ⟨hload, htables (.table people) (List.mem_cons_self ..), hname, hcompile .plain⟩

end Clause

end BoundSql
