import BoundSql.Proofs.Clause.Decoding
import BoundSql.Proofs.Json.Kinds

/-!
# Documents of clauses

The document of a clause is sound when the floats in it are read back from their texts: keys do
not repeat, integers fit, and kinds are known. The document of the normal form nests as deep.
-/

namespace BoundSql

open Json (Sound sound_null sound_bool sound_string sound_int sound_array sound_object)

/-- The scalar is no finite float whose text is read as another one. -/
def Scalar.Legible : Scalar → Prop
  | .float x => x.isFinite = true → Json.parse (Json.pretty (.float x)) = .ok (.float x)
  | _ => True

theorem eq_ok_float_iff (r : Except Error Json) (x : Binary64) :
    r = .ok (.float x) ↔ (match r with
      | .ok (.float y) => decide (y = x)
      | _ => false) = true := by
  rcases r with e | j
  · simp
  · cases j <;> simp

instance : DecidablePred Scalar.Legible
  | .float x =>
    have := decidable_of_iff' _ (eq_ok_float_iff (Json.parse (Json.pretty (.float x))) x)
    inferInstanceAs (Decidable (x.isFinite = true → _))
  | .null | .bool _ | .int _ | .date _ | .moment _ | .text _ => inferInstanceAs (Decidable True)

/-! ### Scalars and tables -/

theorem sound_ofScalar (v : Scalar) (hv : v.Legible) : Sound (.ofScalar v) := by
  cases v with
  | null => exact sound_null
  | bool b => exact sound_bool b
  | int n =>
    have hlow := Int64.le_toInt n
    have hhigh := Int64.toInt_lt n
    exact sound_int n.toInt ⟨by omega, by omega⟩
  | float x =>
    by_cases hx : x.isFinite = true
    · rw [Json.ofScalar, if_pos hx]
      intro d hd
      rw [List.mem_singleton.mp hd]
      exact ⟨hv hx, trivial⟩
    · rw [Json.ofScalar, if_neg hx]
      exact sound_null
  | date d => exact sound_string _
  | moment m => exact sound_string _
  | text s => exact sound_string s

theorem sound_ofOption {α : Type} (encode : α → Json) (o : Option α)
    (h : ∀ x ∈ o, Sound (encode x)) : Sound (.ofOption encode o) := by
  cases o with
  | none => exact sound_null
  | some x => exact h x rfl

theorem sound_nat (n : Nat) (hn : n < 2 ^ 64) : Sound (.int n) :=
  sound_int n ⟨by omega, by omega⟩

theorem Operator.sound_toJson (o : Operator) : Sound o.toJson := by
  cases o with
  | custom token =>
    exact sound_object _ (by simp) rfl (by simpa using sound_string token)
  | _ => exact sound_string _

theorem Reference.sound_toJson (r : Reference) : Sound r.toJson :=
  sound_object _ (by simp) rfl (by simpa using ⟨sound_string r.table, sound_string r.column⟩)

theorem Column.sound_toJson (c : Column) (hc : ∀ v ∈ c.options.default, v.Legible) :
    Sound c.toJson := by
  have hlength : Sound (.ofOption (fun n : UInt32 => .int n.toNat) c.options.length) :=
    sound_ofOption _ _ fun n _ => sound_nat n.toNat (by have := n.toNat_lt; omega)
  have hreference : Sound (.ofOption Reference.toJson c.options.reference) :=
    sound_ofOption _ _ fun r _ => r.sound_toJson
  have hdefault : Sound (.ofOption .ofScalar c.options.default) :=
    sound_ofOption _ _ fun v hv => sound_ofScalar v (hc v hv)
  have hoptions : Sound c.options.toJson :=
    sound_object _ (by simp) rfl (by simp [hlength, hreference, hdefault, sound_bool])
  exact sound_object _ (by simp) rfl (by simp [hoptions, sound_string])

theorem Table.sound_members (t : Table) (ht : ∀ v ∈ t.defaults, v.Legible) :
    ∀ m ∈ t.members, m.2.Sound := by
  have hcolumns : Sound (.array (t.columns.map Column.toJson)) := by
    refine sound_array _ fun j hj => ?_
    obtain ⟨c, hc, rfl⟩ := List.mem_map.mp hj
    exact c.sound_toJson fun v hv => ht v (List.mem_filterMap.mpr ⟨c, hc, hv⟩)
  simp [Table.members, sound_string, hcolumns]

theorem Table.sound_toJson (t : Table) (ht : ∀ v ∈ t.defaults, v.Legible) : Sound t.toJson :=
  sound_object _ (by simp [Table.members]) rfl (t.sound_members ht)

theorem Alias.sound_members (a : Alias) (ha : ∀ v ∈ a.table.defaults, v.Legible) :
    ∀ m ∈ a.members, m.2.Sound := by
  simp [Alias.members, sound_string, a.table.sound_toJson ha]

theorem Source.sound_toJson (s : Source) (hs : ∀ v ∈ s.base.defaults, v.Legible) :
    Sound s.toJson := by
  cases s with
  | table t =>
    exact sound_object _ (by simp [Table.members]) rfl
      (List.forall_mem_cons.mpr ⟨sound_string _, t.sound_members hs⟩)
  | aliased a =>
    exact sound_object _ (by simp [Alias.members]) rfl
      (List.forall_mem_cons.mpr ⟨sound_string _, a.sound_members hs⟩)

theorem ColumnRef.sound_members (c : ColumnRef)
    (hc : ∀ s ∈ c.source, ∀ v ∈ s.base.defaults, v.Legible) : ∀ m ∈ c.members, m.2.Sound := by
  have hsource : Sound (.ofOption Source.toJson c.source) :=
    sound_ofOption _ _ fun s hs => s.sound_toJson (hc s hs)
  unfold ColumnRef.members
  cases c.qualifier <;> simp [sound_string, hsource]

theorem sound_valuesJson (values : Option (List (String × Scalar)))
    (h : ∀ v ∈ values.elim [] fun row => row.map (·.2), v.Legible) : Sound (valuesJson values) := by
  refine sound_ofOption _ _ fun row hrow => sound_array _ fun j hj => ?_
  obtain ⟨e, he, rfl⟩ := List.mem_map.mp hj
  have hv : e.2.Legible := h e.2 (by
    rw [Option.mem_def.mp hrow]
    exact List.mem_map_of_mem he)
  refine sound_array _ ?_
  simp [sound_string, sound_ofScalar e.2 hv]

theorem sound_countJson (count : Option UInt64) : Sound (countJson count) :=
  sound_ofOption _ _ fun n _ => sound_nat n.toNat n.toNat_lt

/-! ### Depth of tables -/

theorem Json.depthOfItems_map_congr {α : Type} (f g : α → Json) (xs : List α)
    (h : ∀ x ∈ xs, (f x).depth = (g x).depth) :
    depthOfItems (xs.map f) = depthOfItems (xs.map g) := by
  induction xs with
  | nil => rfl
  | cons x xs ih =>
    obtain ⟨hx, hxs⟩ := List.forall_mem_cons.mp h
    rw [List.map_cons, List.map_cons, depthOfItems, depthOfItems, hx, ih hxs]

theorem Json.depth_ofScalar (v : Scalar) : (ofScalar v).depth = 0 := by
  cases v with
  | float x => by_cases hx : x.isFinite = true <;> simp [ofScalar, hx, depth]
  | _ => rfl

theorem Column.depth_normal (c : Column) : c.normal.toJson.depth = c.toJson.depth := by
  have hdefault (d : Option Scalar) : (Json.ofOption .ofScalar d).depth = 0 := by
    cases d with
    | none => rfl
    | some v => exact Json.depth_ofScalar v
  simp only [Column.toJson, normal, ColumnOptions.toJson, Json.depth, Json.depthOfMembers, hdefault]

theorem Table.depth_normal (t : Table) :
    Json.depthOfMembers t.normal.members = Json.depthOfMembers t.members := by
  have hcolumns := Json.depthOfItems_map_congr _ _ t.columns fun c _ => c.depth_normal
  simp only [members, normal, Json.depthOfMembers, Json.depth, List.map_map, Function.comp_def,
    hcolumns]

theorem Alias.depth_normal (a : Alias) :
    Json.depthOfMembers (a.mapTable Table.normal).members = Json.depthOfMembers a.members := by
  simp only [members, mapTable, Json.depthOfMembers, Table.toJson, Json.depth, a.table.depth_normal]

theorem ColumnRef.depth_normal (c : ColumnRef) :
    Json.depthOfMembers (c.mapTable Table.normal).members = Json.depthOfMembers c.members := by
  have hsource (s : Source) : (s.mapTable Table.normal).toJson.depth = s.toJson.depth := by
    cases s with
    | table t => simp only [Source.mapTable, Source.toJson, Json.depth, Json.depthOfMembers,
        t.depth_normal]
    | aliased a => simp only [Source.mapTable, Source.toJson, Json.depth, Json.depthOfMembers,
        a.depth_normal]
  obtain ⟨name, source, qualifier⟩ := c
  cases source <;> cases qualifier <;>
    simp only [members, mapTable, Option.map, Json.ofOption, List.cons_append, List.nil_append,
      Json.depthOfMembers, hsource]

theorem depth_valuesJson_map (f : Scalar → Scalar) (values : Option (List (String × Scalar))) :
    (valuesJson (values.map (mapRow f))).depth = (valuesJson values).depth := by
  cases values with
  | none => rfl
  | some row =>
    have hrow := Json.depthOfItems_map_congr
      (fun e : String × Scalar => .array [.string e.1, .ofScalar (f e.2)])
      (fun e => .array [.string e.1, .ofScalar e.2]) row
      fun e _ => by simp only [Json.depth, Json.depthOfItems, Json.depth_ofScalar]
    simp only [valuesJson, Json.ofOption, Option.map_some, mapRow, List.map_map, Function.comp_def,
      Json.depth, hrow]

namespace Clause

/-! ### Clauses -/

/-- The scalars that the document of a node holds itself are read back from their texts. -/
def OwnLegible (c : Clause) : Prop :=
  (∀ v ∈ c.ownValues, v.Legible) ∧ ∀ s ∈ c.ownSources, ∀ v ∈ s.base.defaults, v.Legible

theorem sound_tagged (kind : String) (ms : List (String × Json)) (hkind : kind ∈ kinds)
    (hkeys : ("kind" :: ms.map (·.1)).Nodup) (h : ∀ m ∈ ms, m.2.Sound) :
    Sound (tagged kind ms) := by
  have hstrange : strangeKind (("kind", .string kind) :: ms) = none := if_pos hkind
  exact sound_object _ hkeys hstrange (List.forall_mem_cons.mpr ⟨sound_string kind, h⟩)

theorem sound_toJsonAll (cs : List Clause) (h : ∀ c ∈ cs, c.toJson.Sound) :
    Sound (.array (toJsonAll cs)) := by
  rw [toJsonAll_eq_map]
  refine sound_array _ fun j hj => ?_
  obtain ⟨c, hc, rfl⟩ := List.mem_map.mp hj
  exact h c hc

theorem sound_toJsonOption (condition : Option Clause) (h : ∀ c ∈ condition, c.toJson.Sound) :
    Sound (toJsonOption condition) := by
  cases condition with
  | none => exact sound_null
  | some c => exact h c rfl

theorem sound_toJsonOrder (order : Option (OrderTerms Clause))
    (h : ∀ o ∈ order, ∀ c ∈ OrderTerms.terms o, c.toJson.Sound) : Sound (toJsonOrder order) := by
  cases order with
  | none => exact sound_null
  | some o =>
    have hterms := sound_toJsonAll o.terms (h o rfl)
    exact sound_object _ (by simp) rfl (by simp [hterms, sound_string])

theorem sound_toJson (c : Clause) (hc : ∀ e ∈ c.nodes, e.OwnLegible) : c.toJson.Sound := by
  induction c using Clause.induct_children with
  | step c ih =>
    rw [forall_nodes] at hc
    obtain ⟨⟨hvalues, hsources⟩, hbelow⟩ := hc
    have hchildren : ∀ d ∈ c.children, d.toJson.Sound := fun d hd => ih d hd (hbelow d hd)
    have hkind := c.kind_mem_kinds
    cases c with
    | table t =>
      exact sound_tagged _ _ hkind (by simp [Table.members])
        (t.sound_members (hsources _ (List.mem_singleton.mpr rfl)))
    | named name => exact sound_tagged _ _ hkind (by simp) (by simp [sound_string])
    | aliased a =>
      exact sound_tagged _ _ hkind (by simp [Alias.members])
        (a.sound_members (hsources _ (List.mem_singleton.mpr rfl)))
    | column r =>
      have hkeys : ("kind" :: r.members.map (·.1)).Nodup := by
        unfold ColumnRef.members
        cases r.qualifier <;> simp
      exact sound_tagged _ _ hkind hkeys
        (r.sound_members fun s hs => hsources s (Option.mem_toList.mpr hs))
    | binary l o r =>
      have hl := hchildren l (by simp [children])
      have hr := hchildren r (by simp [children])
      exact sound_tagged _ _ hkind (by simp) (by simp [hl, hr, o.sound_toJson])
    | unary o e m =>
      have he := hchildren e (List.mem_singleton.mpr rfl)
      have ho := sound_ofOption Operator.toJson o fun p _ => p.sound_toJson
      have hm := sound_ofOption Operator.toJson m fun p _ => p.sound_toJson
      exact sound_tagged _ _ hkind (by simp) (by simp [he, ho, hm])
    | junction o cs =>
      have hcs := sound_toJsonAll cs hchildren
      exact sound_tagged _ _ hkind (by simp) (by simp [hcs, o.sound_toJson])
    | group e =>
      have he := hchildren e (List.mem_singleton.mpr rfl)
      exact sound_tagged _ _ hkind (by simp) (by simp [he])
    | sequence cs separator =>
      have hcs := sound_toJsonAll cs hchildren
      exact sound_tagged _ _ hkind (by simp) (by simp [hcs, sound_string])
    | bind key v =>
      have hv := sound_ofScalar v (hvalues v (List.mem_singleton.mpr rfl))
      exact sound_tagged _ _ hkind (by simp) (by simp [hv, sound_string])
    | null => exact sound_tagged _ _ hkind (by simp) (by simp)
    | join l r on outer =>
      have hl := hchildren l (by simp [children])
      have hr := hchildren r (by simp [children])
      have hon := hchildren on (by simp [children])
      exact sound_tagged _ _ hkind (by simp) (by simp [hl, hr, hon, sound_bool])
    | select columns froms condition order limit offset distinct =>
      obtain ⟨hc, hf, hw, ho⟩ := (forall_children_select _ ..).mp hchildren
      have hcolumns := sound_toJsonAll columns hc
      have hfroms := sound_toJsonAll froms hf
      have hcondition := sound_toJsonOption condition hw
      have horder := sound_toJsonOrder order ho
      exact sound_tagged _ _ hkind (by simp)
        (by simp [hcolumns, hfroms, hcondition, horder, sound_countJson, sound_bool])
    | insert t values =>
      have ht := t.sound_toJson (hsources _ (List.mem_singleton.mpr rfl))
      have hrow := sound_valuesJson values hvalues
      exact sound_tagged _ _ hkind (by simp) (by simp [ht, hrow])
    | update t values condition =>
      have ht := t.sound_toJson (hsources _ (List.mem_singleton.mpr rfl))
      have hrow := sound_valuesJson values hvalues
      have hcondition := sound_toJsonOption condition fun d hd =>
        hchildren d (Option.mem_toList.mpr hd)
      exact sound_tagged _ _ hkind (by simp) (by simp [ht, hrow, hcondition])
    | delete t condition =>
      have ht := t.sound_toJson (hsources _ (List.mem_singleton.mpr rfl))
      have hcondition := sound_toJsonOption condition fun d hd =>
        hchildren d (Option.mem_toList.mpr hd)
      exact sound_tagged _ _ hkind (by simp) (by simp [ht, hcondition])

/-! ### Depth of clauses -/

theorem depth_toJsonAll (cs : List Clause)
    (h : ∀ c ∈ cs, c.normal.toJson.depth = c.toJson.depth) :
    Json.depthOfItems (toJsonAll (cs.map normal)) = Json.depthOfItems (toJsonAll cs) := by
  rw [toJsonAll_eq_map, toJsonAll_eq_map, List.map_map]
  exact Json.depthOfItems_map_congr _ _ cs h

theorem depth_toJsonOption (condition : Option Clause)
    (h : ∀ c ∈ condition, c.normal.toJson.depth = c.toJson.depth) :
    (toJsonOption (condition.map normal)).depth = (toJsonOption condition).depth := by
  cases condition with
  | none => rfl
  | some c => exact h c rfl

theorem depth_toJsonOrder (order : Option (OrderTerms Clause))
    (h : ∀ o ∈ order, ∀ c ∈ OrderTerms.terms o, c.normal.toJson.depth = c.toJson.depth) :
    (toJsonOrder (order.map normalOrder)).depth = (toJsonOrder order).depth := by
  cases order with
  | none => rfl
  | some o =>
    have hterms := depth_toJsonAll o.terms (h o rfl)
    simp only [Option.map_some, normalOrder, toJsonOrder, Json.depth, Json.depthOfMembers, hterms]

theorem depth_tagged (kind : String) (ms : List (String × Json)) :
    (tagged kind ms).depth = Json.depthOfMembers ms + 1 := by
  simp [tagged, Json.depth, Json.depthOfMembers]

/-- The document of the normal form nests as deep as that of the clause. -/
theorem depth_normal (c : Clause) : c.normal.toJson.depth = c.toJson.depth := by
  induction c using Clause.induct_children with
  | step c ih =>
    cases c with
    | table t =>
      show (tagged "Table" t.normal.members).depth = (tagged "Table" t.members).depth
      rw [depth_tagged, depth_tagged, t.depth_normal]
    | aliased a =>
      show (tagged "Alias" (a.mapTable Table.normal).members).depth = (tagged "Alias" a.members).depth
      rw [depth_tagged, depth_tagged, a.depth_normal]
    | column r =>
      show (tagged "Column" (r.mapTable Table.normal).members).depth
        = (tagged "Column" r.members).depth
      rw [depth_tagged, depth_tagged, r.depth_normal]
    | binary l o r =>
      have hl := ih l (by simp [children])
      have hr := ih r (by simp [children])
      show (binary l.normal o r.normal).toJson.depth = _
      simp only [toJson, depth_tagged, Json.depthOfMembers, hl, hr]
    | unary o e m =>
      have he := ih e (List.mem_singleton.mpr rfl)
      show (unary o e.normal m).toJson.depth = _
      simp only [toJson, depth_tagged, Json.depthOfMembers, he]
    | junction o cs =>
      rw [normal_junction]
      simp only [toJson, depth_tagged, Json.depthOfMembers, Json.depth, depth_toJsonAll cs ih]
    | group e =>
      have he := ih e (List.mem_singleton.mpr rfl)
      show (group e.normal).toJson.depth = _
      simp only [toJson, depth_tagged, Json.depthOfMembers, he]
    | sequence cs separator =>
      rw [normal_sequence]
      simp only [toJson, depth_tagged, Json.depthOfMembers, Json.depth, depth_toJsonAll cs ih]
    | bind key v =>
      show (bind key v.normal).toJson.depth = _
      simp only [toJson, depth_tagged, Json.depthOfMembers, Json.depth_ofScalar]
    | join l r on outer =>
      have hl := ih l (by simp [children])
      have hr := ih r (by simp [children])
      have hon := ih on (by simp [children])
      show (join l.normal r.normal on.normal outer).toJson.depth = _
      simp only [toJson, depth_tagged, Json.depthOfMembers, hl, hr, hon]
    | select columns froms condition order limit offset distinct =>
      obtain ⟨hc, hf, hw, ho⟩ := (forall_children_select _ ..).mp ih
      rw [normal_select]
      simp only [toJson, depth_tagged, Json.depthOfMembers, Json.depth, depth_toJsonAll columns hc,
        depth_toJsonAll froms hf, depth_toJsonOption condition hw, depth_toJsonOrder order ho]
    | insert t values =>
      show (insert t.normal (values.map (mapRow Scalar.normal))).toJson.depth = _
      simp only [toJson, depth_tagged, Json.depthOfMembers, Table.toJson, Json.depth,
        t.depth_normal, depth_valuesJson_map]
    | update t values condition =>
      have hcondition := depth_toJsonOption condition fun d hd => ih d (Option.mem_toList.mpr hd)
      rw [normal_update]
      simp only [toJson, depth_tagged, Json.depthOfMembers, Table.toJson, Json.depth,
        t.depth_normal, depth_valuesJson_map, hcondition]
    | delete t condition =>
      have hcondition := depth_toJsonOption condition fun d hd => ih d (Option.mem_toList.mpr hd)
      rw [normal_delete]
      simp only [toJson, depth_tagged, Json.depthOfMembers, Table.toJson, Json.depth,
        t.depth_normal, hcondition]
    | _ => rfl

end Clause

end BoundSql
