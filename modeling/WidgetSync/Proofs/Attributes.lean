import WidgetSync.View.Interaction
import WidgetSync.Proofs.OrdMap

/-! What views read of attributes. A value reads as a boolean, a number or a text exactly if it is the value
made of one, so that reading and writing agree. -/
namespace WidgetSync

namespace Value

theorem asBool?_eq_some_iff {v : Value} {b : Bool} : v.asBool? = some b ↔ v = .ofBool b := by
  constructor
  · intro h
    rw [asBool?] at h
    split at h
    · next hj =>
      obtain rfl := Option.some.inj h
      exact ext hj
    · contradiction
  · rintro rfl
    exact asBool?_ofBool b

theorem asInt64?_eq_some_iff {v : Value} {n : Int64} : v.asInt64? = some n ↔ v = .ofInt64 n := by
  constructor
  · intro h
    rw [asInt64?] at h
    split at h
    · next k hj =>
      cases k with
      | double d => contradiction
      | int i hi =>
        simp only [Number.asInt64?] at h
        split at h
        · next hlt =>
          obtain rfl := Option.some.inj h
          have he : (Int64.ofInt i).toInt = i := Int64.toInt_ofInt_of_le (by omega) hlt
          refine ext (hj.trans ?_)
          simp only [ofInt64, Number.ofInt64, he]
        · contradiction
    · contradiction
  · rintro rfl
    have hlt : n.toInt < 0x8000000000000000 := n.toInt_lt
    simp [asInt64?, ofInt64, Number.ofInt64, Number.asInt64?, hlt]

end Value

namespace Attributes

variable {a : Attributes} {key : String}

theorem getBool?_eq_some_iff {b : Bool} : a.getBool? key = some b ↔ a.get? key = some (.ofBool b) := by
  cases h : a.get? key <;> simp [getBool?, h, Value.asBool?_eq_some_iff]

theorem getInt?_eq_some_iff {n : Int64} : a.getInt? key = some n ↔ a.get? key = some (.ofInt64 n) := by
  cases h : a.get? key <;> simp [getInt?, h, Value.asInt64?_eq_some_iff]

/-- The attributes with another value. -/
def withValue (a : Attributes) (value : Value) : Attributes := a.merge (.ofList [("value", value)])

theorem get?_withValue (a : Attributes) (value : Value) (key : String) :
    (a.withValue value).get? key = if "value" = key then some value else a.get? key := by
  rw [withValue, OrdMap.get?_merge]
  have hone : (OrdMap.ofList [("value", value)]).get? key =
      if "value" = key then some value else none := OrdMap.get?_insert_eq _ _ _ _
  rw [hone]
  split <;> rfl

@[simp] theorem getBool?_withValue_of_ne (h : "value" ≠ key) (value : Value) :
    (a.withValue value).getBool? key = a.getBool? key := by
  rw [getBool?, get?_withValue, if_neg h, getBool?]

@[simp] theorem getString?_withValue_of_ne (h : "value" ≠ key) (value : Value) :
    (a.withValue value).getString? key = a.getString? key := by
  rw [getString?, get?_withValue, if_neg h, getString?]

@[simp] theorem getInt?_withValue_of_ne (h : "value" ≠ key) (value : Value) :
    (a.withValue value).getInt? key = a.getInt? key := by
  rw [getInt?, get?_withValue, if_neg h, getInt?]

@[simp] theorem boolValue_withValue (a : Attributes) (b : Bool) :
    (a.withValue (.ofBool b)).boolValue = b := by
  have h : (a.withValue (.ofBool b)).getBool? "value" = some b := by
    rw [getBool?_eq_some_iff, get?_withValue, if_pos rfl]
  rw [boolValue, h, Option.getD_some]

@[simp] theorem intValue_withValue (a : Attributes) (n : Int64) :
    (a.withValue (.ofInt64 n)).intValue = n := by
  have h : (a.withValue (.ofInt64 n)).getInt? "value" = some n := by
    rw [getInt?_eq_some_iff, get?_withValue, if_pos rfl]
  rw [intValue, h, Option.getD_some]

@[simp] theorem description_withValue (a : Attributes) (value : Value) :
    (a.withValue value).description = a.description := by
  rw [description, getString?_withValue_of_ne (by decide), description]

@[simp] theorem isDisabled_withValue (a : Attributes) (value : Value) :
    (a.withValue value).isDisabled = a.isDisabled := by
  rw [isDisabled, getBool?_withValue_of_ne (by decide), isDisabled]

theorem boolValue_iff : a.boolValue = true ↔ a.get? "value" = some (.ofBool true) := by
  rw [← getBool?_eq_some_iff, boolValue]
  cases h : a.getBool? "value" <;> simp

theorem isDisabled_iff : a.isDisabled = true ↔ a.get? "disabled" = some (.ofBool true) := by
  rw [← getBool?_eq_some_iff, isDisabled]
  cases h : a.getBool? "disabled" <;> simp

end Attributes

end WidgetSync
