import WidgetSync.Manager.Removal
import WidgetSync.Manager.Interaction

/-! Everything that can be asked of a manager, as one step from state to state. -/
namespace WidgetSync

inductive Operation where
  | registerModel (name : String) (kind : ModelKind)
  | registerView (name : String) (kind : ViewKind)
  | registerDefaults
  | openComm (request : CommOpen)
  | message (message : CommMessage)
  | update (comm : CommId) (state : Attributes)
  | status (comm : CommId) (report : StatusMessage)
  | output (comm : CommId) (text : String)
  | closeComm (comm : CommId)
  | execute (cell : Nat) (message : String)
  | display (comm : CommId) (viewName : String) (parent : Option CommId) (group : GroupKey)
  | change (view : ViewId) (changes : Attributes)
  | ui (view : ViewId) (event : UiEvent)
  | sendCustom (view : ViewId) (content : Value)
  | removeView (view : ViewId)
  deriving DecidableEq

/-- What an operation answers. -/
inductive Reply where
  | done
  | opened (comm : CommId)
  | displayed (views : List ViewId)
  | changed (state : Attributes)
  /-- Whether there was such a view. -/
  | removed (isLive : Bool)
  deriving DecidableEq

/-- The manager after an operation, the frames sent, and the answer. -/
structure Outcome where
  manager : Manager
  frames : List Frame
  reply : Except ManagerError Reply

namespace Outcome

/-- The outcome of an operation that either succeeds or changes nothing. -/
def ofExcept {α : Type} (m : Manager) (result : Except ManagerError α)
    (success : α → Manager × List Frame × Reply) : Outcome :=
  match result with
  | .error e => ⟨m, [], .error e⟩
  | .ok a =>
    let (manager, frames, reply) := success a
    ⟨manager, frames, .ok reply⟩

/-- The outcome of an operation that sends nothing, and may change the manager before it fails. -/
def silent (result : Manager × Except ManagerError Unit) : Outcome :=
  ⟨result.1, [], result.2.map fun _ => .done⟩

end Outcome

namespace Manager

def step (m : Manager) : Operation → Outcome
  | .registerModel name kind => .ofExcept m (m.registerModel name kind) fun m => (m, [], .done)
  | .registerView name kind => .ofExcept m (m.registerView name kind) fun m => (m, [], .done)
  | .registerDefaults => .silent m.registerDefaults
  | .openComm request => .ofExcept m (m.openComm request) fun m => (m, [], .opened request.comm)
  | .message message => .silent (m.message message)
  | .update comm state => .silent (m.update comm state)
  | .status comm report =>
    let (m, frames) := m.status comm report
    ⟨m, frames, .ok .done⟩
  | .output comm text => ⟨m.output comm text, [], .ok .done⟩
  | .closeComm comm =>
    let (m, frames) := m.closeComm comm
    ⟨m, frames, .ok .done⟩
  | .execute cell message => .ofExcept m (m.execute cell message) fun m => (m, [], .done)
  | .display comm viewName parent group =>
    .ofExcept m (m.display comm viewName parent group) fun (m, ids) => (m, [], .displayed ids)
  | .change view changes =>
    .ofExcept m (m.change view changes) fun (m, frames, state) => (m, frames, .changed state)
  | .ui view event => .ofExcept m (m.handleUi view event) fun (m, frames) => (m, frames, .done)
  | .sendCustom view content =>
    .ofExcept m (m.sendCustom view content) fun (m, frames) => (m, frames, .done)
  | .removeView view =>
    let (m', frames) := m.removeView view
    ⟨m', frames, .ok (.removed (m.views.contains view))⟩

end Manager

/-- The operation that an event of a session stands for. -/
def SessionEvent.operation : SessionEvent → Operation
  | .execute cell message => .execute cell message
  | .commOpen request => .openComm request
  | .commMessage message => .message message
  | .commClose comm => .closeComm comm
  | .status comm report => .status comm report
  | .output comm text => .output comm text
  | .ui view event => .ui view event
  | .removeView view => .removeView view

end WidgetSync
