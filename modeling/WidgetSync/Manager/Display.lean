import WidgetSync.Manager.Basic
import WidgetSync.Wire.Decode

/-! Displaying views. A view goes into every host that its parent has in the group, or else into the group's area. -/
namespace WidgetSync.Manager

/-- The region for a view: the cell asked for, or the cell of the request that caused it, or the selected one. -/
def resolveGroup (m : Manager) (cell : Option Nat) (parentMessage : Option String) : GroupKey :=
  match cell <|> (parentMessage >>= m.notebook.cellOfMessage?) <|> m.notebook.selected with
  | some index => .cell index
  | none => .detached

def isHost (m : Manager) (id : ViewId) : Bool := (m.views.get? id).any (·.view.isHost)

/-- The views of the parent model, registered under the group, that can host others. -/
def hosts (m : Manager) (parent : Option CommId) (group : GroupKey) : List ViewId :=
  ((parent >>= m.models.get?).elim [] fun model => model.viewsIn group).filter m.isHost

/-- Adds a view that shows nothing yet of its model, and gives its id. -/
def createView (m : Manager) (kind : ViewKind) (comm : CommId) (group : GroupKey)
    (placement : Placement) : Manager × ViewId :=
  let id : ViewId := ⟨m.nextView⟩
  ({ m with
      models := m.models.modify comm fun model => (model.addView group id).subscribe id
      views := m.views.insert id ⟨View.new kind comm group, placement⟩
      nextView := m.nextView + 1 }, id)

def modifyView (m : Manager) (id : ViewId) (f : View → View) : Manager :=
  { m with views := m.views.modify id fun slot => { slot with view := f slot.view } }

/-- Adds a view to each host. -/
def createInHosts (m : Manager) (kind : ViewKind) (comm : CommId) (group : GroupKey) :
    List ViewId → Manager × List ViewId
  | [] => (m, [])
  | host :: rest =>
    let (m, id) := m.createView kind comm group (.host host)
    let (m, ids) := (m.modifyView host (·.addChild id)).createInHosts kind comm group rest
    (m, id :: ids)

/-- Adds a view to the area of its group, which is shown. -/
def createInArea (m : Manager) (kind : ViewKind) (comm : CommId) (group : GroupKey) : Manager × ViewId :=
  let (m, id) := m.createView kind comm group (.area group)
  ({ m with notebook := m.notebook.modifyArea group fun area => (area.append id).reveal }, id)

def display (m : Manager) (comm : CommId) (viewName : String) (parent : Option CommId)
    (group : GroupKey) : Except ManagerError (Manager × List ViewId) :=
  match m.viewKinds.get? viewName with
  | none => .error (.unknownViewType viewName)
  | some kind =>
    if !m.models.contains comm then .error (.unknownComm comm)
    else
      let (m, ids) :=
        match m.hosts parent group with
        | [] =>
          let (m, id) := m.createInArea kind comm group
          (m, [id])
        | hosts => m.createInHosts kind comm group hosts
      .ok (ids.foldl refreshView m, ids)

/-- Passes a message of the backend to its model. Messages for nobody, and those of no known form, are ignored. -/
def message (m : Manager) (message : CommMessage) : Manager × Except ManagerError Unit :=
  if !m.models.contains message.comm then (m, .ok ())
  else
    match ModelMessage.ofJson? message.data with
    | none => (m, .ok ())
    | some (.display viewName parent cell) =>
      match m.display message.comm viewName parent (m.resolveGroup cell message.parentMessage) with
      | .ok (m, _) => (m, .ok ())
      | .error e => (m, .error e)
    | some (.update state) => m.update message.comm state

end WidgetSync.Manager
