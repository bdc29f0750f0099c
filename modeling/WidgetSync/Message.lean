import WidgetSync.Address
import WidgetSync.Attributes

/-! What travels between the backend, the page and its user. -/
namespace WidgetSync

/-- What a model tells its backend counterpart. -/
inductive SyncMessage where
  /-- The whole state. -/
  | update (data : Attributes)
  /-- Changed attributes only. -/
  | patch (data : Attributes)
  /-- Application data that bypasses the state. -/
  | custom (content : Value)
  deriving DecidableEq

/-- Where output goes that the backend produces while it handles a message. -/
structure Callbacks where
  output : Option GroupKey
  deriving DecidableEq

/-- What leaves the page on a comm. -/
inductive Frame where
  | message (comm : CommId) (data : SyncMessage) (callbacks : Callbacks)
  | close (comm : CommId)
  deriving DecidableEq

def Frame.comm : Frame → CommId
  | .message comm _ _ => comm
  | .close comm => comm

/-- What the backend tells a model. -/
inductive ModelMessage where
  | display (viewName : String) (parent : Option CommId) (cell : Option Nat)
  | update (state : Attributes)
  deriving DecidableEq

inductive ExecutionState where
  | busy
  | idle
  | starting
  deriving DecidableEq, Repr

namespace ExecutionState

def name : ExecutionState → String
  | .busy => "busy"
  | .idle => "idle"
  | .starting => "starting"

def all : List ExecutionState := [.busy, .idle, .starting]

def ofName? (name : String) : Option ExecutionState := all.find? (·.name = name)

theorem ofName?_name (s : ExecutionState) : ofName? s.name = some s := by cases s <;> decide

end ExecutionState

structure StatusMessage where
  state : ExecutionState
  deriving DecidableEq

structure CommOpen where
  comm : CommId
  target : String
  deriving DecidableEq

structure CommMessage where
  comm : CommId
  data : Value
  /-- The execution request that caused the message. -/
  parentMessage : Option String
  deriving DecidableEq

/-- What the user does to a view. -/
inductive UiEvent where
  | click
  | input (text : String)
  | slide (position : Int64)
  deriving DecidableEq

inductive SessionEvent where
  | execute (cell : Nat) (message : String)
  | commOpen (request : CommOpen)
  | commMessage (message : CommMessage)
  | commClose (comm : CommId)
  | status (comm : CommId) (report : StatusMessage)
  | output (comm : CommId) (text : String)
  | ui (view : ViewId) (event : UiEvent)
  | removeView (view : ViewId)
  deriving DecidableEq

end WidgetSync
