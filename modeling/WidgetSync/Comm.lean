import WidgetSync.Message

/-! Comms and the hub that hands them out. A comm delivers while nobody closed it and its channel has a reader. -/
namespace WidgetSync

inductive CommError where
  | closed (comm : CommId)
  /-- The channel has no reader any more. -/
  | noReader
  deriving DecidableEq

def CommError.message : CommError → String
  | .closed comm => "comm " ++ comm.name ++ " is closed"
  | .noReader => "channel closed"

structure Comm where
  id : CommId
  isClosed : Bool
  hasReader : Bool
  deriving DecidableEq

namespace Comm

/-- A new comm on a channel with a reader. -/
def opened (id : CommId) : Comm := ⟨id, false, true⟩

def delivers (comm : Comm) : Bool := !comm.isClosed && comm.hasReader

def send (comm : Comm) (data : SyncMessage) (callbacks : Callbacks) : Except CommError Frame :=
  if comm.isClosed then .error (.closed comm.id)
  else if comm.hasReader then .ok (.message comm.id data callbacks)
  else .error .noReader

/-- Closes the comm; the first time that tells the backend. -/
def close (comm : Comm) : Comm × List Frame :=
  ({ comm with isClosed := true }, if comm.delivers then [.close comm.id] else [])

def disconnect (comm : Comm) : Comm := { comm with hasReader := false }

end Comm

/-- Knows which targets the backend may open comms for. -/
structure CommHub where
  targets : OrdMap String Unit
  hasReader : Bool
  deriving DecidableEq

namespace CommHub

def new : CommHub := ⟨∅, true⟩

def register (hub : CommHub) (target : String) : CommHub :=
  { hub with targets := hub.targets.insert target () }

def hasTarget (hub : CommHub) (target : String) : Bool := hub.targets.contains target

def comm (hub : CommHub) (id : CommId) : Comm := ⟨id, false, hub.hasReader⟩

def disconnect (hub : CommHub) : CommHub := { hub with hasReader := false }

end CommHub

end WidgetSync
