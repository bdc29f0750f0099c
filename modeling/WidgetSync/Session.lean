import WidgetSync.Manager.Operation
import WidgetSync.Manager.Render
import WidgetSync.Json.Reader
import WidgetSync.Text.Utf8

/-! Sessions: one event a line, and the connection that answers events with frames. -/
namespace WidgetSync

/-- One backend connection. Without a manager nothing happens. -/
structure Connection where
  throttle : Nat
  manager : Option Manager
  /-- Frames that were sent and not yet handed out. -/
  outbox : List Frame

namespace Connection

def new (throttle : Nat) : Connection := ⟨throttle, none, []⟩

/-- The manager, or a new one over the notebook that knows the built-in kinds. -/
def managerOver (c : Connection) (notebook : Notebook) : Manager :=
  c.manager.getD (.withDefaults notebook c.throttle)

/-- Installs a manager over the notebook, unless there is one. -/
def install (c : Connection) (notebook : Notebook) : Connection :=
  { c with manager := some (c.managerOver notebook) }

/-- An operation on the manager, whose frames stay in the outbox. -/
def perform (c : Connection) (operation : Operation) : Connection :=
  match c.manager with
  | none => c
  | some m =>
    let outcome := m.step operation
    { c with manager := some outcome.manager, outbox := c.outbox ++ outcome.frames }

/-- Applies an event and hands out the frames. An event that fails leaves the connection running. -/
def process (c : Connection) (event : SessionEvent) : Connection × List Frame :=
  let c := c.perform event.operation
  ({ c with outbox := [] }, c.outbox)

/-- Applies events in order. -/
def run (c : Connection) : List SessionEvent → Connection × List Frame
  | [] => (c, [])
  | event :: rest =>
    let (c, frames) := c.process event
    let (c, more) := c.run rest
    (c, frames ++ more)

end Connection

/-- What was read of a session, and the fault that ended the reading early. -/
structure Session where
  events : List SessionEvent
  fault : Option Text.Utf8.Fault
  deriving DecidableEq

namespace Session

/-- The event on a line. Blank lines, comments and lines that are no event hold none. -/
def event? (line : List Char) : Option SessionEvent :=
  match Text.trim line with
  | [] => none
  | '#' :: _ => none
  | line => Json.readChars? line >>= SessionEvent.ofJson?

/-- Reads lines up to the first that is no text. -/
def ofLines : List (Except Text.Utf8.Fault (List Char)) → Session
  | [] => ⟨[], none⟩
  | .error fault :: _ => ⟨[], some fault⟩
  | .ok line :: rest =>
    let session := ofLines rest
    { session with events := (event? line).toList ++ session.events }

/-- The lines, each with the line feed that ends it; `acc` holds the start of the first one, last item first. -/
def lines {α : Type} (isLineFeed : α → Bool) (acc : List α) : List α → List (List α)
  | [] => if acc.isEmpty then [] else [acc.reverse]
  | c :: cs =>
    if isLineFeed c then (c :: acc).reverse :: lines isLineFeed [] cs else lines isLineFeed (c :: acc) cs

def ofText (text : String) : Session := ofLines ((lines (· = '\n') [] text.toList).map .ok)

def ofBytes (bytes : List UInt8) : Session := ofLines ((lines (· = 10) [] bytes).map Text.Utf8.decode)

end Session

end WidgetSync
