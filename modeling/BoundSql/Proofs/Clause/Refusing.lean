import BoundSql.Proofs.Json.Order

/-!
# Documents of unknown kinds

A document is refused for an unknown kind just when some object in it, wherever it stands, has
one; and then for the first one, whatever else there is to refuse in the document.
-/

namespace BoundSql

open Clause (kinds strangeKind unknownKind unknownKindOfItems unknownKindOfMembers)

namespace Json

theorem strangeKind_eq_some (ms : List (String × Json)) (kind : String)
    (h : (ms.map (·.1)).Nodup) :
    strangeKind ms = some kind ↔ ("kind", .string kind) ∈ ms ∧ kind ∉ kinds := by
  rw [← member?_eq_some ms "kind" _ h, strangeKind]
  split
  · next found hfound =>
    rw [hfound, Option.some.injEq, string.injEq]
    split
    · next hknown =>
      exact iff_of_false (fun h => by cases h) fun h => h.2 (h.1 ▸ hknown)
    · next hunknown =>
      rw [Option.some.injEq]
      exact ⟨fun h => ⟨h, h ▸ hunknown⟩, And.left⟩
  · next hnone =>
    exact iff_of_false (fun h => by cases h) fun h => hnone kind h.1

/-- The unknown kind of an object itself. -/
def ownUnknownKind : Json → Option String
  | object ms => strangeKind ms
  | _ => none

/-- The search for an unknown kind goes through the parts of the document in their order. -/
theorem unknownKind_eq_findSome? (j : Json) : unknownKind j = j.parts.findSome? ownUnknownKind := by
  induction j using Json.induct with
  | array items ih =>
    have hitems : unknownKindOfItems items = (partsOfItems items).findSome? ownUnknownKind := by
      induction items with
      | nil => rfl
      | cons j js ihjs =>
        obtain ⟨hj, hjs⟩ := List.forall_mem_cons.mp ih
        rw [unknownKindOfItems, partsOfItems, List.findSome?_append, hj, ihjs hjs]
    rw [unknownKind, parts, List.findSome?_cons, hitems]
    rfl
  | object ms ih =>
    have hms : unknownKindOfMembers ms = (partsOfMembers ms).findSome? ownUnknownKind := by
      induction ms with
      | nil => rfl
      | cons m ms ihms =>
        obtain ⟨hm, hms⟩ := List.forall_mem_cons.mp ih
        rw [unknownKindOfMembers, partsOfMembers, List.findSome?_append, hm, ihms hms]
    rw [unknownKind, parts, List.findSome?_cons, hms, ownUnknownKind]
    cases strangeKind ms <;> rfl
  | _ => rfl

/-- The document has an object with this kind, which is none of a clause. -/
def HasUnknownKind (j : Json) (kind : String) : Prop :=
  ∃ ms, object ms ∈ j.parts ∧ ("kind", .string kind) ∈ ms ∧ kind ∉ kinds

/-- The kind is the first unknown one, when an object comes before what it holds, its members in
their order and items in theirs. -/
def FirstUnknownKind (j : Json) (kind : String) : Prop :=
  ∃ before ms after, j.parts = before ++ object ms :: after ∧
    ("kind", .string kind) ∈ ms ∧ kind ∉ kinds ∧
    ∀ ns other, object ns ∈ before → ("kind", .string other) ∈ ns → other ∈ kinds

theorem ownUnknownKind_eq_some (d : Json) (kind : String) (h : d.OwnOrdered) :
    ownUnknownKind d = some kind ↔
      ∃ ms, d = object ms ∧ ("kind", .string kind) ∈ ms ∧ kind ∉ kinds := by
  cases d with
  | object ms =>
    rw [ownUnknownKind, strangeKind_eq_some ms kind (Ascending.nodup h)]
    constructor
    · exact fun hkind => ⟨ms, rfl, hkind⟩
    · rintro ⟨ns, hns, hkind⟩
      rwa [object.inj hns]
  | _ =>
    refine iff_of_false (fun hkind => by cases hkind) ?_
    rintro ⟨ms, hd, _⟩
    cases hd

theorem ownUnknownKind_eq_none (d : Json) (h : d.OwnOrdered) :
    ownUnknownKind d = none ↔
      ∀ ms kind, d = object ms → ("kind", .string kind) ∈ ms → kind ∈ kinds := by
  rw [Option.eq_none_iff_forall_ne_some]
  simp only [ne_eq, ownUnknownKind_eq_some d _ h, not_exists, not_and, not_not]
  exact forall_comm

theorem unknownKind_eq_some (j : Json) (kind : String) (h : j.Ordered) :
    unknownKind j = some kind ↔ j.FirstUnknownKind kind := by
  rw [unknownKind_eq_findSome?, List.findSome?_eq_some_iff]
  constructor
  · rintro ⟨before, d, after, hparts, hkind, hbefore⟩
    have hd : d ∈ j.parts := by simp [hparts]
    obtain ⟨ms, rfl, hmem, hunknown⟩ := (ownUnknownKind_eq_some d kind (h d hd)).mp hkind
    refine ⟨before, ms, after, hparts, hmem, hunknown, fun ns other hns => ?_⟩
    have hordered : OwnOrdered (object ns) := h _ (by simp [hparts, hns])
    exact (ownUnknownKind_eq_none _ hordered).mp (hbefore _ hns) ns other rfl
  · rintro ⟨before, ms, after, hparts, hmem, hunknown, hbefore⟩
    have hms : object ms ∈ j.parts := by simp [hparts]
    refine ⟨before, object ms, after, hparts, ?_, fun d hd => ?_⟩
    · exact (ownUnknownKind_eq_some _ kind (h _ hms)).mpr ⟨ms, rfl, hmem, hunknown⟩
    · refine (ownUnknownKind_eq_none d (h d (by simp [hparts, hd]))).mpr ?_
      rintro ns other rfl
      exact hbefore ns other hd

theorem unknownKind_isSome (j : Json) (h : j.Ordered) :
    (unknownKind j).isSome ↔ ∃ kind, j.HasUnknownKind kind := by
  rw [unknownKind_eq_findSome?, List.findSome?_isSome_iff]
  constructor
  · rintro ⟨d, hd, hsome⟩
    obtain ⟨kind, hkind⟩ := Option.isSome_iff_exists.mp hsome
    obtain ⟨ms, rfl, hunknown⟩ := (ownUnknownKind_eq_some d kind (h d hd)).mp hkind
    exact ⟨kind, ms, hd, hunknown⟩
  · rintro ⟨kind, ms, hms, hunknown⟩
    have hkind := (ownUnknownKind_eq_some _ kind (h _ hms)).mpr ⟨ms, rfl, hunknown⟩
    exact ⟨object ms, hms, Option.isSome_iff_exists.mpr ⟨kind, hkind⟩⟩

end Json

namespace Clause

theorem ofDocument_eq_unknownKind (j : Json) (kind : String) :
    ofDocument j = .error (.unknownKind kind) ↔ unknownKind j = some kind := by
  rw [ofDocument]
  cases unknownKind j with
  | some found => simp
  | none =>
    cases ofJson j with
    | error fault => exact iff_of_false (fun h => by cases h) fun h => by cases h
    | ok c => exact iff_of_false (fun h => by cases h) fun h => by cases h

/--
Loading a text that is a document fails with an unknown kind just when some object in the
document, at any depth, has one, and the kind is then the first one there. The members of an
object, among which a key occurs once, come in the order of their keys.
-/
theorem load_refuses_unknownKind (text : String) (j : Json) (h : Json.parse text = .ok j) :
    (∀ ms, .object ms ∈ j.parts → (ms.map (·.1)).Pairwise (· < ·)) ∧
      (∀ kind, load text = .error (.unknownKind kind) ↔ j.FirstUnknownKind kind) ∧
      ((∃ kind, load text = .error (.unknownKind kind)) ↔ ∃ kind, j.HasUnknownKind kind) := by
  have hordered := Json.ordered_of_parse text j h
  have hload : load text = ofDocument j := by
    rw [load, h]
    rfl
  refine ⟨fun ms hms => hordered _ hms, fun kind => ?_, ?_⟩
  · rw [hload, ofDocument_eq_unknownKind, j.unknownKind_eq_some kind hordered]
  · rw [hload, ← j.unknownKind_isSome hordered, Option.isSome_iff_exists]
    simp only [ofDocument_eq_unknownKind]

/-- A group with members that no group has, and with two kinds of its element. -/
def strayText : String :=
  "\x7b\"more\": [\x7b\"kind\": \"Brace\"\x7d], "
    ++ "\"element\": \x7b\"kind\": \"Bracket\", \"kind\": \"Null\"\x7d, "
    ++ "\"also\": \x7b\"kind\": \"Parenthesis\"\x7d, \"kind\": \"Grouping\"\x7d"

/-- Of the kinds of the element the last one counts, and of the others that of `also` comes
first. -/
theorem load_refuses_unknownKind_strayText :
    let j : Json := .object [("also", .object [("kind", .string "Parenthesis")]),
      ("element", .object [("kind", .string "Null")]), ("kind", .string "Grouping"),
      ("more", .array [.object [("kind", .string "Brace")]])]
    Json.parse strayText = .ok j ∧ j.FirstUnknownKind "Parenthesis" ∧
      load strayText = .error (.unknownKind "Parenthesis") := by
  intro j
  have hparse : Json.parse strayText = .ok j := by cbv
  have hfirst : j.FirstUnknownKind "Parenthesis" := by
    refine ⟨[j], _, _, rfl, List.mem_singleton_self _, by decide, ?_⟩
    rintro ns other hns hother
    obtain rfl := Json.object.inj (List.mem_singleton.mp hns)
    obtain rfl : other = "Grouping" := by simpa using hother
    decide
  exact ⟨hparse, hfirst, ((load_refuses_unknownKind strayText j hparse).2.1 _).mpr hfirst⟩

end Clause

end BoundSql
