import WidgetSync.Manager.Basic

/-! What the user and the views do to models. -/
namespace WidgetSync.Manager

/-- A live view's model. -/
def modelOf (m : Manager) (view : ViewId) : Except ManagerError (View × Model) :=
  match m.views.get? view with
  | none => .error (.unknownView view)
  | some slot =>
    match m.models.get? slot.view.model with
    | none => .error (.unknownComm slot.view.model)
    | some model => .ok (slot.view, model)

/-- A local change by a view: the model takes it and tells the backend, and the model's other views are drawn anew.
Gives the model's state. -/
def change (m : Manager) (caller : ViewId) (changes : Attributes) :
    Except ManagerError (Manager × List Frame × Attributes) :=
  match m.modelOf caller with
  | .error e => .error e
  | .ok (view, model) =>
    let model := (model.setLastModified caller).set changes
    let (synced, frames) := model.requestSync changes true
    .ok ((m.setModel view.model synced).refreshViews view.model (some caller), frames, model.attributes)

/-- Application data of a view. -/
def sendCustom (m : Manager) (view : ViewId) (content : Value) :
    Except ManagerError (Manager × List Frame) :=
  match m.modelOf view with
  | .error (.unknownComm _) => .ok (m, [])
  | .error e => .error e
  | .ok (v, model) =>
    let model := model.setLastModified view
    .ok (m.setModel v.model model, model.sendCustom content)

/-- Lets a view react to the user and does what it asks for. -/
def handleUi (m : Manager) (id : ViewId) (event : UiEvent) : Except ManagerError (Manager × List Frame) :=
  match m.modelOf id with
  | .error e => .error e
  | .ok (view, model) =>
    let (view, interaction) := view.handleEvent event model
    let m := { m with views := m.views.modify id fun slot => { slot with view } }
    match interaction with
    | none => .ok (m, [])
    | some (.sync changes) => (m.change id changes).map fun (m, frames, _) => (m, frames)
    | some (.custom content) => m.sendCustom id content

end WidgetSync.Manager
