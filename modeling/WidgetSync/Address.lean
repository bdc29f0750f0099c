import WidgetSync.Text.Integer

/-! Names of comms, views and groups, with the orders in which they are listed. -/
namespace WidgetSync

/-- A comm ties one model to its counterpart in the backend. -/
structure CommId where
  name : String
  deriving DecidableEq, Repr, Inhabited

structure ViewId where
  index : Nat
  deriving DecidableEq, Repr, Inhabited

/-- The region of the document that displayed a view. -/
inductive GroupKey where
  | cell (index : Nat)
  | detached
  deriving DecidableEq, Repr, Inhabited

namespace CommId

instance : Ord CommId := ⟨fun a b => compare a.name b.name⟩

instance : Std.TransOrd CommId where
  eq_swap := fun {a b} => @Std.OrientedCmp.eq_swap String compare _ a.name b.name
  isLE_trans := fun {a b c} => @Std.TransCmp.isLE_trans String compare _ a.name b.name c.name

instance : Std.LawfulEqOrd CommId where
  compare_self := fun {a} => @Std.ReflCmp.compare_self String compare _ a.name
  eq_of_compare := fun {a b} h => by
    cases a; cases b
    exact congrArg CommId.mk (Std.LawfulEqOrd.eq_of_compare h)

end CommId

namespace ViewId

instance : Ord ViewId := ⟨fun a b => compare a.index b.index⟩

instance : Std.TransOrd ViewId where
  eq_swap := fun {a b} => @Std.OrientedCmp.eq_swap Nat compare _ a.index b.index
  isLE_trans := fun {a b c} => @Std.TransCmp.isLE_trans Nat compare _ a.index b.index c.index

instance : Std.LawfulEqOrd ViewId where
  compare_self := fun {a} => @Std.ReflCmp.compare_self Nat compare _ a.index
  eq_of_compare := fun {a b} h => by
    cases a; cases b
    exact congrArg ViewId.mk (Std.LawfulEqOrd.eq_of_compare h)

def text (id : ViewId) : String := "view#" ++ String.ofList (Text.ofNat id.index)

end ViewId

namespace GroupKey

/-- Cells come by their index, before the detached group. -/
instance : Ord GroupKey where
  compare
    | .cell i, .cell j => compare i j
    | .cell _, .detached => .lt
    | .detached, .cell _ => .gt
    | .detached, .detached => .eq

instance : Std.TransOrd GroupKey where
  eq_swap := fun {a b} =>
    match a, b with
    | .cell i, .cell j => @Std.OrientedCmp.eq_swap Nat compare _ i j
    | .cell _, .detached => rfl
    | .detached, .cell _ => rfl
    | .detached, .detached => rfl
  isLE_trans := fun {a b c} hab hbc =>
    match a, b, c with
    | .cell i, .cell j, .cell k => @Std.TransCmp.isLE_trans Nat compare _ i j k hab hbc
    | .cell _, _, .detached => rfl
    | .detached, _, .detached => rfl
    | .detached, .cell _, .cell _ => absurd hab Bool.false_ne_true
    | _, .detached, .cell _ => absurd hbc Bool.false_ne_true

instance : Std.LawfulEqOrd GroupKey where
  compare_self := fun {a} =>
    match a with
    | .cell i => @Std.ReflCmp.compare_self Nat compare _ i
    | .detached => rfl
  eq_of_compare := fun {a b} h =>
    match a, b with
    | .cell _, .cell _ => congrArg GroupKey.cell (Std.LawfulEqOrd.eq_of_compare h)
    | .cell _, .detached => nomatch h
    | .detached, .cell _ => nomatch h
    | .detached, .detached => rfl

def text : GroupKey → String
  | .cell index => "cell " ++ String.ofList (Text.ofNat index)
  | .detached => "detached"

end GroupKey

end WidgetSync
