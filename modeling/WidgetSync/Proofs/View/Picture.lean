import WidgetSync.Proofs.View.Reaction

/-! What a reader of the page finds of a model in the element of a view, kind by kind, in terms of the values of the
model alone. -/
namespace WidgetSync

/-- The number that a model stands at: its value, if that is a 64-bit number, and else 0. -/
def Attributes.StandsAt (a : Attributes) (n : Int64) : Prop :=
  a.get? "value" = some (.ofInt64 n) ∨ (n = 0 ∧ ∀ k, a.get? "value" ≠ some (.ofInt64 k))

theorem Attributes.standsAt (a : Attributes) : a.StandsAt a.intValue := by
  rw [intValue]
  cases h : a.getInt? "value" with
  | some n => exact .inl (getInt?_eq_some_iff.mp h)
  | none =>
    refine .inr ⟨rfl, fun n hn => ?_⟩
    rw [← getInt?_eq_some_iff, h] at hn
    contradiction

namespace Element

/-- There is a part at the end of a path, and its face is as told. -/
def HasAt (e : Element) (path : List Nat) (P : Face → Prop) : Prop :=
  ∃ part, e.at? path = some part ∧ P part.face

end Element

namespace Face

end Face

namespace ViewKind

open Face

end ViewKind

end WidgetSync
