import BoundSql.Proofs.Clause.Nodes
import BoundSql.Proofs.Clause.Values
import BoundSql.Proofs.Schema.Normal

/-!
# Clauses in documents

A clause comes back from its document with its bound values and the tables it mentions in normal
form. That is the clause itself when all of them are in normal form already, and it renders like
the clause when the tables are.
-/

namespace BoundSql

namespace Clause

mutual
/-- The clause with a function applied to every table it mentions. -/
def mapTables (g : Table → Table) : Clause → Clause
  | table t => table (g t)
  | named name => named name
  | aliased a => aliased (a.mapTable g)
  | column c => column (c.mapTable g)
  | binary l o r => binary (mapTables g l) o (mapTables g r)
  | unary o c m => unary o (mapTables g c) m
  | junction o cs => junction o (mapTablesOfAll g cs)
  | group c => group (mapTables g c)
  | sequence cs separator => sequence (mapTablesOfAll g cs) separator
  | bind key v => bind key v
  | null => null
  | join l r on outer => join (mapTables g l) (mapTables g r) (mapTables g on) outer
  | select columns froms condition order limit offset distinct =>
    select (mapTablesOfAll g columns) (mapTablesOfAll g froms)
      (match condition with
        | some c => some (mapTables g c)
        | none => none)
      (match order with
        | some ⟨terms, separator⟩ => some ⟨mapTablesOfAll g terms, separator⟩
        | none => none)
      limit offset distinct
  | insert t values => insert (g t) values
  | update t values condition =>
    update (g t) values
      (match condition with
        | some c => some (mapTables g c)
        | none => none)
  | delete t condition =>
    delete (g t)
      (match condition with
        | some c => some (mapTables g c)
        | none => none)

def mapTablesOfAll (g : Table → Table) : List Clause → List Clause
  | [] => []
  | c :: cs => mapTables g c :: mapTablesOfAll g cs
end

theorem mapTablesOfAll_eq_map (g : Table → Table) (cs : List Clause) :
    mapTablesOfAll g cs = cs.map (mapTables g) := by
  induction cs with
  | nil => rfl
  | cons c cs ih => rw [mapTablesOfAll, ih, List.map_cons]

/-- The clause with its bound values and the tables it mentions in normal form. -/
def normal (c : Clause) : Clause := (c.mapValues Scalar.normal).mapTables Table.normal

theorem normal_junction (o : Operator) (cs : List Clause) :
    normal (.junction o cs) = .junction o (cs.map normal) := by
  simp only [normal, mapValues, mapTables, mapValuesOfAll_eq_map, mapTablesOfAll_eq_map,
    List.map_map]
  rfl

theorem normal_sequence (cs : List Clause) (separator : String) :
    normal (.sequence cs separator) = .sequence (cs.map normal) separator := by
  simp only [normal, mapValues, mapTables, mapValuesOfAll_eq_map, mapTablesOfAll_eq_map,
    List.map_map]
  rfl

def normalOrder (o : OrderTerms Clause) : OrderTerms Clause := ⟨o.terms.map normal, o.separator⟩

theorem normal_select (columns froms : List Clause) (condition : Option Clause)
    (order : Option (OrderTerms Clause)) (limit offset : Option UInt64) (distinct : Bool) :
    normal (.select columns froms condition order limit offset distinct)
      = .select (columns.map normal) (froms.map normal) (condition.map normal)
        (order.map normalOrder) limit offset distinct := by
  cases condition <;> cases order <;>
    simp only [normal, mapValues, mapTables, mapValuesOfAll_eq_map, mapTablesOfAll_eq_map,
      List.map_map, Option.map, normalOrder] <;> rfl

theorem normal_update (t : Table) (values : Option (List (String × Scalar)))
    (condition : Option Clause) :
    normal (.update t values condition)
      = .update t.normal (values.map (mapRow Scalar.normal)) (condition.map normal) := by
  cases condition <;> rfl

theorem normal_delete (t : Table) (condition : Option Clause) :
    normal (.delete t condition) = .delete t.normal (condition.map normal) := by
  cases condition <;> rfl

/-! ### What a clause mentions -/

/-- The values bound by a node itself. -/
def ownValues : Clause → List Scalar
  | bind _ v => [v]
  | insert _ values => values.elim [] fun row => row.map (·.2)
  | update _ values _ => values.elim [] fun row => row.map (·.2)
  | _ => []

/-- The sources named by a node itself. -/
def ownSources : Clause → List Source
  | table t => [.table t]
  | aliased a => [.aliased a]
  | column c => c.source.toList
  | insert t _ => [.table t]
  | update t _ _ => [.table t]
  | delete t _ => [.table t]
  | _ => []

/-- The bound values of a clause. -/
def values (c : Clause) : List Scalar := c.nodes.flatMap ownValues

/-- The tables and aliases that a clause mentions. -/
def mentions (c : Clause) : List Source := c.nodes.flatMap ownSources

/-- The defaults of the columns of the tables that a clause mentions. -/
def defaults (c : Clause) : List Scalar := c.mentions.flatMap fun s => s.base.defaults

theorem children_normal (c : Clause) : c.normal.children = c.children.map normal := by
  cases c with
  | junction o cs => rw [normal_junction]; rfl
  | sequence cs separator => rw [normal_sequence]; rfl
  | select columns froms condition order limit offset distinct =>
    rw [normal_select]
    cases condition <;> cases order <;> simp [children, normalOrder]
  | update t values condition =>
    rw [normal_update]
    cases condition <;> rfl
  | delete t condition =>
    rw [normal_delete]
    cases condition <;> rfl
  | _ => rfl

theorem nodes_normal (c : Clause) : c.normal.nodes = c.nodes.map normal := by
  induction c using Clause.induct_children with
  | step c ih =>
    rw [nodes_eq, nodes_eq, children_normal, List.map_cons, List.flatMap_map, List.map_flatMap]
    exact congrArg (c.normal :: ·) (List.flatMap_congr ih)

theorem row_normal (values : Option (List (String × Scalar))) :
    ((values.map (mapRow Scalar.normal)).elim [] fun row => row.map (·.2))
      = (values.elim [] fun row => row.map (·.2)).map Scalar.normal := by
  cases values <;> simp [mapRow]

theorem ownValues_normal (c : Clause) : c.normal.ownValues = c.ownValues.map Scalar.normal := by
  cases c with
  | insert t values => exact row_normal values
  | update t values condition =>
    rw [normal_update]
    exact row_normal values
  | select columns froms condition order limit offset distinct => rw [normal_select]; rfl
  | delete t condition => rw [normal_delete]; rfl
  | _ => rfl

theorem ownSources_normal (c : Clause) :
    c.normal.ownSources = c.ownSources.map (Source.mapTable Table.normal) := by
  cases c with
  | column c =>
    simp only [normal, mapValues, mapTables, ownSources, ColumnRef.mapTable]
    cases c.source <;> rfl
  | update t values condition => rw [normal_update]; rfl
  | select columns froms condition order limit offset distinct => rw [normal_select]; rfl
  | delete t condition => rw [normal_delete]; rfl
  | _ => rfl

theorem values_normal (c : Clause) : c.normal.values = c.values.map Scalar.normal := by
  simp only [values, nodes_normal, List.flatMap_map, List.map_flatMap, ownValues_normal]

theorem mentions_normal (c : Clause) :
    c.normal.mentions = c.mentions.map (Source.mapTable Table.normal) := by
  simp only [mentions, nodes_normal, List.flatMap_map, List.map_flatMap, ownSources_normal]

/-! ### Clauses in normal form -/

theorem forall_defaults (c : Clause) (P : Scalar → Prop) :
    (∀ v ∈ c.defaults, P v) ↔ ∀ s ∈ c.mentions, ∀ v ∈ s.base.defaults, P v := by
  simp only [defaults, List.forall_mem_flatMap]

/-- Reading a document back changes bound values only, when the tables stay as they are. -/
theorem normal_eq_mapValues (c : Clause)
    (h : ∀ s ∈ c.mentions, s.mapTable Table.normal = s) : c.normal = c.mapValues Scalar.normal := by
  induction c using Clause.induct_children with
  | step c ih =>
    simp only [mentions, List.forall_mem_flatMap] at h ih
    rw [forall_nodes] at h
    obtain ⟨hown, hbelow⟩ := h
    have hchildren : ∀ d ∈ c.children, d.normal = d.mapValues Scalar.normal :=
      fun d hd => ih d hd (hbelow d hd)
    cases c with
    | table t => exact congrArg Source.toClause (hown _ (List.mem_singleton.mpr rfl))
    | aliased a => exact congrArg Source.toClause (hown _ (List.mem_singleton.mpr rfl))
    | column r =>
      obtain ⟨name, source, qualifier⟩ := r
      cases source with
      | none => rfl
      | some s =>
        have hs : s.mapTable Table.normal = s := hown _ (List.mem_singleton.mpr rfl)
        exact congrArg (fun s => column ⟨name, some s, qualifier⟩) hs
    | binary l o r =>
      have hl := hchildren l (by simp [children])
      have hr := hchildren r (by simp [children])
      show binary l.normal o r.normal = _
      rw [hl, hr, mapValues]
    | unary o e m => exact congrArg (unary o · m) (hchildren e (List.mem_singleton.mpr rfl))
    | junction o cs =>
      have hcs : cs.map normal = cs.map (mapValues Scalar.normal) := List.map_congr_left hchildren
      rw [normal_junction, mapValues, mapValuesOfAll_eq_map, hcs]
    | group e => exact congrArg group (hchildren e (List.mem_singleton.mpr rfl))
    | sequence cs separator =>
      have hcs : cs.map normal = cs.map (mapValues Scalar.normal) := List.map_congr_left hchildren
      rw [normal_sequence, mapValues, mapValuesOfAll_eq_map, hcs]
    | join l r on outer =>
      have hl := hchildren l (by simp [children])
      have hr := hchildren r (by simp [children])
      have hon := hchildren on (by simp [children])
      show join l.normal r.normal on.normal outer = _
      rw [hl, hr, hon, mapValues]
    | select columns froms condition order limit offset distinct =>
      obtain ⟨hc, hf, hw, ho⟩ := (forall_children_select _ ..).mp hchildren
      have horder : order.map normalOrder = order.map (mapOrder Scalar.normal) :=
        Option.map_congr fun o hmem => by
          rw [normalOrder, mapOrder, List.map_congr_left (ho o hmem)]
      rw [normal_select, mapValues_select, List.map_congr_left hc, List.map_congr_left hf,
        Option.map_congr hw, horder]
    | insert t values =>
      have ht := hown _ (List.mem_singleton.mpr rfl)
      exact congrArg (insert · (values.map (mapRow Scalar.normal))) (Source.table.inj ht)
    | update t values condition =>
      have ht : t.normal = t := Source.table.inj (hown _ (List.mem_singleton.mpr rfl))
      rw [normal_update, mapValues_update, ht,
        Option.map_congr fun d hd => hchildren d (Option.mem_toList.mpr hd)]
    | delete t condition =>
      have ht : t.normal = t := Source.table.inj (hown _ (List.mem_singleton.mpr rfl))
      rw [normal_delete, mapValues_delete, ht,
        Option.map_congr fun d hd => hchildren d (Option.mem_toList.mpr hd)]
    | _ => rfl

theorem mapRow_eq_self (f : Scalar → Scalar) (values : Option (List (String × Scalar)))
    (h : ∀ v ∈ values.elim [] fun row => row.map (·.2), f v = v) :
    values.map (mapRow f) = values := by
  cases values with
  | none => rfl
  | some row =>
    refine congrArg some ((map_eq_self_iff _ row).mpr fun e he => ?_)
    rw [h e.2 (List.mem_map_of_mem he)]

/-- Values that stay as they are leave the clause as it is. -/
theorem mapValues_eq_self (f : Scalar → Scalar) (c : Clause) (h : ∀ v ∈ c.values, f v = v) :
    c.mapValues f = c := by
  have hoption (condition : Option Clause) (hcondition : ∀ d ∈ condition, d.mapValues f = d) :
      condition.map (mapValues f) = condition := by
    rw [Option.map_congr hcondition, Option.map_id']
  induction c using Clause.induct_children with
  | step c ih =>
    simp only [values, List.forall_mem_flatMap] at h ih
    rw [forall_nodes] at h
    obtain ⟨hown, hbelow⟩ := h
    have hchildren : ∀ d ∈ c.children, d.mapValues f = d := fun d hd => ih d hd (hbelow d hd)
    cases c with
    | bind key v => exact congrArg (bind key) (hown v (List.mem_singleton.mpr rfl))
    | binary l o r =>
      have hl := hchildren l (by simp [children])
      have hr := hchildren r (by simp [children])
      rw [mapValues, hl, hr]
    | unary o e m => rw [mapValues, hchildren e (List.mem_singleton.mpr rfl)]
    | junction o cs => rw [mapValues, mapValuesOfAll_eq_map, (map_eq_self_iff _ cs).mpr hchildren]
    | group e => rw [mapValues, hchildren e (List.mem_singleton.mpr rfl)]
    | sequence cs separator =>
      rw [mapValues, mapValuesOfAll_eq_map, (map_eq_self_iff _ cs).mpr hchildren]
    | join l r on outer =>
      have hl := hchildren l (by simp [children])
      have hr := hchildren r (by simp [children])
      have hon := hchildren on (by simp [children])
      rw [mapValues, hl, hr, hon]
    | select columns froms condition order limit offset distinct =>
      obtain ⟨hc, hf, hw, ho⟩ := (forall_children_select _ ..).mp hchildren
      have horder : order.map (mapOrder f) = order := by
        cases order with
        | none => rfl
        | some o => rw [Option.map_some, mapOrder, (map_eq_self_iff _ o.terms).mpr (ho o rfl)]
      rw [mapValues_select, (map_eq_self_iff _ columns).mpr hc, (map_eq_self_iff _ froms).mpr hf,
        horder, hoption condition hw]
    | insert t values => exact congrArg (insert t) (mapRow_eq_self f values hown)
    | update t values condition =>
      rw [mapValues_update, mapRow_eq_self f values hown,
        hoption condition fun d hd => hchildren d (Option.mem_toList.mpr hd)]
    | delete t condition =>
      rw [mapValues_delete, hoption condition fun d hd => hchildren d (Option.mem_toList.mpr hd)]
    | _ => rfl

/-- A clause is in normal form when its bound values and its defaults are and no default is
null. -/
theorem normal_eq_iff (c : Clause) :
    c.normal = c ↔
      (∀ v ∈ c.values, v.normal = v) ∧ ∀ v ∈ c.defaults, v.normal = v ∧ v ≠ .null := by
  rw [forall_defaults]
  constructor
  · intro h
    have hvalues := values_normal c
    have hmentions := mentions_normal c
    rw [h] at hvalues hmentions
    exact ⟨(map_eq_self_iff _ _).mp hvalues.symm, fun s hs =>
      s.mapTable_eq_iff.mp ((map_eq_self_iff _ _).mp hmentions.symm s hs)⟩
  · rintro ⟨hvalues, hdefaults⟩
    rw [normal_eq_mapValues c fun s hs => s.mapTable_eq_iff.mpr (hdefaults s hs)]
    exact mapValues_eq_self _ c hvalues

theorem normal_normal (c : Clause) : c.normal.normal = c.normal := by
  rw [normal_eq_iff, values_normal, forall_defaults, mentions_normal]
  constructor
  · intro v hv
    obtain ⟨w, _, rfl⟩ := List.mem_map.mp hv
    exact w.normal_normal
  · intro s hs
    obtain ⟨r, _, rfl⟩ := List.mem_map.mp hs
    rw [← Source.mapTable_eq_iff]
    cases r with
    | table t => exact congrArg Source.table t.normal_normal
    | aliased a =>
      exact congrArg (fun t => Source.aliased ⟨t, a.name⟩) a.table.normal_normal

end Clause

end BoundSql
