import WidgetSync.Comm
import WidgetSync.Throttle

/-! A widget model: the state that a widget shares with its backend counterpart over one comm.
Operations return the frames that they send. -/
namespace WidgetSync

structure Model where
  typeName : String
  comm : Comm
  attributes : Attributes
  css : Css
  /-- The views of each group, in the order in which they came; no group is empty. -/
  groups : OrdMap GroupKey (List ViewId)
  /-- The views that are refreshed when the state changes. -/
  subscribers : List ViewId
  /-- The messages in flight. -/
  pending : Nat
  /-- How many messages may be in flight. -/
  throttle : Nat
  /-- The changes that wait for a free slot. -/
  buffer : Option Attributes
  lastModified : Option ViewId
  /-- An update from the backend is being applied. -/
  updating : Bool
  deriving DecidableEq

namespace Model

def defaultThrottle : Nat := 3

def new (typeName : String) (comm : Comm) : Model where
  typeName
  comm
  attributes := ∅
  css := ∅
  groups := ∅
  subscribers := []
  pending := 0
  throttle := defaultThrottle
  buffer := none
  lastModified := none
  updating := false

def id (m : Model) : CommId := m.comm.id

/-- Initial values; the backend has them already. -/
def withDefaults (m : Model) (defaults : Attributes) : Model :=
  { m with attributes := m.attributes.merge defaults }

def withThrottle (m : Model) (throttle : Nat) : Model := { m with throttle }

/-- A local change, which `requestSync` tells the backend. -/
def set (m : Model) (changes : Attributes) : Model :=
  { m with attributes := m.attributes.merge changes }

def setLastModified (m : Model) (view : ViewId) : Model := { m with lastModified := some view }

/-- The group that a view is registered under. -/
def groupOf? (m : Model) (view : ViewId) : Option GroupKey :=
  (m.groups.firstWhere? fun _ views => views.contains view).map (·.1)

/-- The group of the view that was modified last, while that view is registered. -/
def outputGroup (m : Model) : Option GroupKey := m.lastModified >>= m.groupOf?

def send (m : Model) (data : SyncMessage) : Except CommError Frame :=
  m.comm.send data ⟨m.outputGroup⟩

/-- Tells the backend of a local change: the changed attributes, or the whole state. With the throttle exhausted
the change waits. A message that cannot be sent is dropped. -/
def requestSync (m : Model) (changed : Attributes) (patch : Bool) : Model × List Frame :=
  if m.updating then (m, [])
  else if Throttle.mustWait m.pending m.throttle then
    ({ m with buffer := some (Throttle.join m.buffer changed m.attributes patch) }, [])
  else
    match m.send (if patch then .patch changed else .update m.attributes) with
    | .ok frame => ({ m with pending := m.pending + 1 }, [frame])
    | .error _ => (m, [])

/-- Application data, which no throttle holds back. -/
def sendCustom (m : Model) (content : Value) : List Frame :=
  match m.send (.custom content) with
  | .ok frame => [frame]
  | .error _ => []

/-- Changes wait that are worth a message. -/
def isWaiting (m : Model) : Bool := m.buffer.any fun b => !b.isEmpty

/-- The backend has handled one message. -/
def onIdle (m : Model) : Model × List Frame :=
  match Throttle.onIdle m.pending m.throttle m.isWaiting with
  | .release => ({ m with pending := m.pending - 1 }, [])
  | .flush =>
    let frames :=
      match m.send (.patch (m.buffer.getD ∅)) with
      | .ok frame => [frame]
      | .error _ => []
    ({ m with buffer := none }, frames)

def handleStatus (m : Model) (status : StatusMessage) : Model × List Frame :=
  match status.state with
  | .idle => m.onIdle
  | .busy | .starting => (m, [])

/-- Merges state of the backend. Faulty style overrides are reported, and all else is merged even then. -/
def mergeRemote (m : Model) (state : Attributes) : Model × Except StateError Unit :=
  let m := { m with attributes := m.attributes.merge (state.erase cssKey) }
  match (state.get? cssKey).map Css.ofValue with
  | none => (m, .ok ())
  | some (.ok css) => ({ m with css }, .ok ())
  | some (.error e) => (m, .error e)

/-- Merges state of the backend without echoing it back. -/
def applyRemote (m : Model) (state : Attributes) : Model × Except StateError Unit :=
  let (m, result) := mergeRemote { m with updating := true } state
  ({ m with updating := false }, result)

def subscribe (m : Model) (view : ViewId) : Model :=
  if m.subscribers.contains view then m else { m with subscribers := m.subscribers ++ [view] }

def unsubscribe (m : Model) (view : ViewId) : Model :=
  { m with subscribers := m.subscribers.filter (· ≠ view) }

def viewsIn (m : Model) (group : GroupKey) : List ViewId := (m.groups.get? group).getD []

/-- All registered views, group by group. -/
def views (m : Model) : List ViewId := m.groups.values.flatten

def hasViews (m : Model) : Bool := !m.groups.isEmpty

def addView (m : Model) (group : GroupKey) (view : ViewId) : Model :=
  { m with groups := m.groups.insert group (m.viewsIn group ++ [view]) }

/-- The groups without a view of one group, which goes when it was the last one. -/
def groupsWithout (m : Model) (group : GroupKey) (view : ViewId) : OrdMap GroupKey (List ViewId) :=
  match (m.viewsIn group).filter (· ≠ view) with
  | [] => m.groups.erase group
  | views => m.groups.insert group views

/-- Deregisters a view; tells whether it was registered. -/
def removeView (m : Model) (view : ViewId) : Model × Bool :=
  match m.groupOf? view with
  | none => (m, false)
  | some group =>
    ({ m with
        groups := m.groupsWithout group view
        lastModified := if m.lastModified = some view then none else m.lastModified }, true)

def closeComm (m : Model) : Model × List Frame :=
  let (comm, frames) := m.comm.close
  ({ m with comm }, frames)

/-- Nobody reads the channel any more. -/
def disconnect (m : Model) : Model := { m with comm := m.comm.disconnect }

end Model

end WidgetSync
