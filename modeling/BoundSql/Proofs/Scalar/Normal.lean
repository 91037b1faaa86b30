import BoundSql.Json.Basic
import BoundSql.Proofs.Calendar.Reading

/-!
# Scalars in documents

A scalar comes back from its document as its normal form: a float that is not finite as null, a
text that reads as a day or a moment as that, and every other scalar as itself.
-/

namespace BoundSql.Scalar

/-- What stands for the scalar after its document is read: a float that is not finite is null, a
text that is one of a day, or else of a moment, is that. -/
def normal : Scalar → Scalar
  | float x => if x.isFinite then float x else null
  | text s =>
    match Date.read? s.toList, Moment.read? s.toList with
    | some d, _ => date d
    | none, some m => moment m
    | none, none => text s
  | v => v

theorem ofText_eq_normal (s : String) : ofText s = (text s).normal := by
  rw [ofText, normal]
  cases Date.read? s.toList with
  | some d => rfl
  | none => cases Moment.read? s.toList <;> rfl

theorem normal_normal (v : Scalar) : v.normal.normal = v.normal := by
  cases v with
  | float x => by_cases hx : x.isFinite = true <;> simp [normal, hx]
  | text s =>
    cases hd : Date.read? s.toList with
    | some d => simp [normal, hd]
    | none => cases hm : Moment.read? s.toList <;> simp [normal, hd, hm]
  | _ => rfl

theorem ofInteger_toInt (n : Int64) : ofInteger n.toInt = int n := by
  rw [ofInteger, if_pos ⟨Int64.minValue_le_toInt n, Int64.toInt_le n⟩, Int64.ofInt_toInt]

theorem ofText_date (d : Date) : ofText (String.ofList d.toText) = date d := by
  rw [ofText, String.toList_ofList, Date.read?_toText]

theorem ofText_moment (m : Moment) : ofText (String.ofList m.toText) = moment m := by
  rw [ofText, String.toList_ofList, Moment.date_read?_toText, Moment.read?_toText]

/-- What comes back from the document of a scalar. -/
theorem scalar?_ofScalar (v : Scalar) : (Json.ofScalar v).scalar? = some v.normal := by
  cases v with
  | null => rfl
  | bool b => rfl
  | int n => exact congrArg some (ofInteger_toInt n)
  | float x => by_cases hx : x.isFinite = true <;> simp [Json.ofScalar, normal, hx, Json.scalar?]
  | date d => exact congrArg some (ofText_date d)
  | moment m => exact congrArg some (ofText_moment m)
  | text s => exact congrArg some (ofText_eq_normal s)

theorem ofScalar_eq_null (v : Scalar) : Json.ofScalar v = .null ↔ v.normal = .null := by
  cases v with
  | float x => by_cases hx : x.isFinite = true <;> simp [Json.ofScalar, normal, hx]
  | text s =>
    cases hd : Date.read? s.toList with
    | some d => simp [Json.ofScalar, normal, hd]
    | none => cases hm : Moment.read? s.toList <;> simp [Json.ofScalar, normal, hd, hm]
  | _ => simp [Json.ofScalar, normal]

end BoundSql.Scalar
