import BoundSql.Proofs.Clause.Document

/-!
# Clauses through their texts

A clause that is written as a text and loaded from it is in normal form: its values and the
defaults of its columns are, and nothing else has changed.
-/

namespace BoundSql

/-! ### Normal forms -/

theorem Scalar.Legible.normal {v : Scalar} (hv : v.Legible) : v.normal.Legible := by
  cases v with
  | float x =>
    by_cases hx : x.isFinite = true
    · rw [Scalar.normal, if_pos hx]
      exact hv
    · rw [Scalar.normal, if_neg hx]
      trivial
  | text s =>
    rw [Scalar.normal]
    cases Date.read? s.toList with
    | some d => trivial
    | none => cases Moment.read? s.toList <;> trivial
  | _ => trivial

theorem Table.mem_defaults_normal (t : Table) :
    ∀ v ∈ t.normal.defaults, ∃ w ∈ t.defaults, v = w.normal := by
  intro v hv
  obtain ⟨d, hd, hv⟩ := List.mem_filterMap.mp hv
  obtain ⟨c, hc, rfl⟩ := List.mem_map.mp hd
  -- A column in normal form has a default only where the column had one.
  obtain ⟨w, hw, hvw⟩ := Option.bind_eq_some_iff.mp hv
  by_cases hnull : w.normal = .null
  · rw [if_pos hnull] at hvw
    cases hvw
  · rw [if_neg hnull] at hvw
    exact ⟨w, List.mem_filterMap.mpr ⟨c, hc, hw⟩, (Option.some.inj hvw).symm⟩

theorem Source.base_mapTable (g : Table → Table) (s : Source) : (s.mapTable g).base = g s.base := by
  cases s <;> rfl

theorem Source.Declared.normal {s : Source} (hs : s.Declared) :
    (s.mapTable Table.normal).Declared := by
  cases s with
  | table t => exact t.wellFormed_normal.mpr hs
  | aliased a => exact ⟨a.table.wellFormed_normal.mpr hs.1, hs.2⟩

namespace Clause

theorem mem_defaults_normal (c : Clause) :
    ∀ v ∈ c.normal.defaults, ∃ w ∈ c.defaults, v = w.normal := by
  intro v hv
  rw [defaults, mentions_normal, List.flatMap_map] at hv
  obtain ⟨s, hs, hv⟩ := List.mem_flatMap.mp hv
  rw [s.base_mapTable] at hv
  obtain ⟨w, hw, hvw⟩ := s.base.mem_defaults_normal v hv
  exact ⟨w, List.mem_flatMap.mpr ⟨s, hs, hw⟩, hvw⟩

/-! ### Loading -/

/-- The clause could have been built, and its document can be read back: it does not nest too
deep, and the floats in it come back from their texts. -/
structure Storable (c : Clause) : Prop where
  declared : ∀ s ∈ c.mentions, s.Declared
  shallow : c.toJson.depth ≤ 127
  legible : ∀ v ∈ c.values ++ c.defaults, v.Legible

theorem Storable.sound {c : Clause} (hc : c.Storable) : c.toJson.Sound := by
  refine c.sound_toJson fun e he => ⟨fun v hv => ?_, fun s hs v hv => ?_⟩
  · exact hc.legible v (List.mem_append_left _ (List.mem_flatMap.mpr ⟨e, he, hv⟩))
  · have hmention : s ∈ c.mentions := List.mem_flatMap.mpr ⟨e, he, hs⟩
    exact hc.legible v (List.mem_append_right _ (List.mem_flatMap.mpr ⟨s, hmention, hv⟩))

theorem Storable.normal {c : Clause} (hc : c.Storable) : c.normal.Storable where
  declared := by
    intro s hs
    rw [mentions_normal] at hs
    obtain ⟨r, hr, rfl⟩ := List.mem_map.mp hs
    exact (hc.declared r hr).normal
  shallow := by
    rw [depth_normal]
    exact hc.shallow
  legible := by
    intro v hv
    rcases List.mem_append.mp hv with hv | hv
    · rw [values_normal] at hv
      obtain ⟨w, hw, rfl⟩ := List.mem_map.mp hv
      exact (hc.legible w (List.mem_append_left _ hw)).normal
    · obtain ⟨w, hw, rfl⟩ := c.mem_defaults_normal v hv
      exact (hc.legible w (List.mem_append_right _ hw)).normal

/-- The kind of a clause's document is given by name. -/
theorem hasNumberedKind_sorted (c : Clause) (hc : c.toJson.Sound) :
    hasNumberedKind c.toJson.sorted = false := by
  obtain ⟨ms, hms⟩ := c.toJson_eq_tagged
  rw [hms] at hc ⊢
  obtain ⟨⟨_, hkeys, _⟩, _⟩ := (Json.forall_parts_object _ _).mp hc
  have hkind : Json.member? (Json.sortedMembers (("kind", .string c.kind) :: ms)) "kind"
      = some (.string c.kind) := by
    rw [Json.member?_sortedMembers "kind" _ hkeys]
    rfl
  simp only [tagged, Json.sorted, hasNumberedKind, hkind]

/-- A clause comes back from its text in normal form. -/
theorem load_toJsonText (c : Clause) (hc : c.Storable) : load c.toJsonText = .ok c.normal := by
  have hsound := hc.sound
  have hparse : Json.parse c.toJsonText = .ok c.toJson.sorted :=
    Json.parse_pretty c.toJson (fun d hd => (hsound d hd).1) hc.shallow
  have hkinds : unknownKind c.toJson.sorted = none := Json.unknownKind_sorted c.toJson hsound
  have hread : (read c.toJson.sorted).clause = .ok c.normal :=
    c.readsAsNormal fun e he s hs => hc.declared s (List.mem_flatMap.mpr ⟨e, he, hs⟩)
  have hdocument : ofDocument c.toJson.sorted = .ok c.normal := by
    rw [ofDocument, hkinds]
    simp only [ofJson, c.hasNumberedKind_sorted hsound, hread]
    rfl
  rw [load, hparse]
  exact hdocument

/-- The clause that is loaded from its own text. -/
def reload (c : Clause) : Except Error Clause := load c.toJsonText

/--
A clause is reloaded in normal form, and a reloaded clause as it is. The clause itself comes back
exactly when its values and defaults are in normal form and no default is null; when the defaults
are so, it renders as before, to the same text with the same keys or with the same error.
-/
theorem reload_normalises (c : Clause) (hc : c.Storable) :
    c.reload = .ok c.normal ∧ c.normal.reload = .ok c.normal ∧
      (c.reload = .ok c ↔ (∀ v ∈ c.values ++ c.defaults, v.normal = v) ∧ .null ∉ c.defaults) ∧
      ((∀ v ∈ c.defaults, v.normal = v) → .null ∉ c.defaults → ∀ q : Quoting,
        (c.normal.compile q).map (fun s => (s.sql, s.params.keys))
          = (c.compile q).map fun s => (s.sql, s.params.keys)) := by
  have hdefaults : (∀ v ∈ c.defaults, v.normal = v ∧ v ≠ .null) ↔
      (∀ v ∈ c.defaults, v.normal = v) ∧ .null ∉ c.defaults := by
    constructor
    · intro h
      exact ⟨fun v hv => (h v hv).1, fun hnull => (h _ hnull).2 rfl⟩
    · rintro ⟨hkept, hnull⟩ v hv
      exact ⟨hkept v hv, fun he => hnull (he ▸ hv)⟩
  have hreload : c.reload = .ok c.normal := c.load_toJsonText hc
  refine ⟨hreload, ?_, ?_, ?_⟩
  · have hagain := c.normal.load_toJsonText hc.normal
    rwa [normal_normal] at hagain
  · rw [hreload, Except.ok.injEq, normal_eq_iff, hdefaults, List.forall_mem_append, and_assoc]
  · intro hkept hnull q
    have hsources : ∀ s ∈ c.mentions, s.mapTable Table.normal = s := fun s hs =>
      s.mapTable_eq_iff.mpr fun v hv =>
        hdefaults.mpr ⟨hkept, hnull⟩ v (List.mem_flatMap.mpr ⟨s, hs, hv⟩)
    rw [c.normal_eq_mapValues hsources, compile_mapValues]
    cases c.compile q with
    | error cause => rfl
    | ok s => exact congrArg (fun keys => Except.ok (s.sql, keys)) (keys_mapValues _ s.params)

/-- Games released since a day, and a score that is no number. -/
def gamesSince : Clause :=
  let games : Table := ⟨"games",
    [⟨"score", .float, { default := some (.float ⟨0x3FD0000000000000⟩) }⟩, ⟨"released", .date, {}⟩]⟩
  let source : Source := .aliased ⟨games, "g"⟩
  .select [.column { name := "score", source := some source }] [source.toClause]
    (some (.junction .and [
      .binary (.column { name := "released", source := some source }) .ge
        (.bind "released" (.text "2024-02-29")),
      .binary (.column { name := "score", source := some source }) .lt
        (.bind "score" (.float .nan))]))
    none (some 10) none false

theorem storable_gamesSince : gamesSince.Storable where
  declared := by decide +kernel
  shallow := by decide +kernel
  legible := by decide +kernel

theorem reload_normalises_gamesSince :
    gamesSince.Storable ∧ gamesSince.reload = .ok gamesSince.normal ∧
      gamesSince.normal.reload = .ok gamesSince.normal ∧ gamesSince.reload ≠ .ok gamesSince ∧
      (∀ v ∈ gamesSince.defaults, v.normal = v) ∧ .null ∉ gamesSince.defaults ∧
      ∀ q : Quoting, (gamesSince.normal.compile q).map (fun s => (s.sql, s.params.keys))
        = (gamesSince.compile q).map fun s => (s.sql, s.params.keys) := by
  obtain ⟨hreload, hagain, hsame, hform⟩ := reload_normalises gamesSince storable_gamesSince
  have hkept : ∀ v ∈ gamesSince.defaults, v.normal = v := by decide +kernel
  have hnull : .null ∉ gamesSince.defaults := by decide +kernel
  have hchanged : ¬∀ v ∈ gamesSince.values ++ gamesSince.defaults, v.normal = v := by
    decide +kernel
  exact ⟨storable_gamesSince, hreload, hagain, fun he => hchanged (hsame.mp he).1, hkept, hnull,
    hform hkept hnull⟩

end Clause

end BoundSql
