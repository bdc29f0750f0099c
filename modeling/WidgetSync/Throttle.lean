import WidgetSync.Attributes

/-! When a change goes to the backend at once, when it waits, and how waiting changes are joined. -/
namespace WidgetSync.Throttle

/-- What an idle backend frees. -/
inductive IdleAction where
  /-- The waiting changes go out in the slot that just became free. -/
  | flush
  /-- Nothing waits, and one slot becomes free. -/
  | release
  deriving DecidableEq, Repr

/-- With as many messages in flight as the throttle allows, a change has to wait. -/
def mustWait (pending throttle : Nat) : Bool := throttle ≤ pending

def onIdle (pending throttle : Nat) (isWaiting : Bool) : IdleAction :=
  if pending = throttle ∧ isWaiting then .flush else .release

/-- Joins a change to the waiting ones: a patch is merged into them, a full update replaces them. -/
def join (waiting : Option Attributes) (changed snapshot : Attributes) (patch : Bool) : Attributes :=
  if patch then (waiting.getD ∅).merge changed else snapshot

end WidgetSync.Throttle
