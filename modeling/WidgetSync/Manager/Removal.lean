import WidgetSync.Manager.Display

/-! Taking views down, with everything they host. A model whose last view goes is dropped and its comm closed. -/
namespace WidgetSync.Manager

/-- Takes a view out of the live ones and out of where it was placed. -/
def detach (m : Manager) (id : ViewId) (placement : Placement) : Manager :=
  let m := { m with views := m.views.erase id }
  match placement with
  | .area group => { m with notebook := m.notebook.modifyArea group (·.remove id) }
  | .host host => m.modifyView host (·.removeChild id)

/-- Deregisters a view from its model. -/
def deregister (m : Manager) (comm : CommId) (id : ViewId) : Manager × List Frame :=
  match m.models.get? comm with
  | none => (m, [])
  | some model =>
    let model := ((model.unsubscribe id).removeView id).1
    if model.hasViews then (m.setModel comm model, [])
    else ({ m with models := m.models.erase comm }, model.closeComm.2)

/-- Takes views down one after the other, by a way to take down one. -/
def removeEach (remove : Manager → ViewId → Manager × List Frame) (m : Manager) :
    List ViewId → Manager × List Frame
  | [] => (m, [])
  | id :: rest =>
    let (m, frames) := remove m id
    let (m, more) := removeEach remove m rest
    (m, frames ++ more)

/-- Takes down a view, and before it leaves its model the views that it hosts, to a depth of `fuel`. -/
def removeTree : (fuel : Nat) → Manager → ViewId → Manager × List Frame
  | 0, m, _ => (m, [])
  | fuel + 1, m, id =>
    match m.views.get? id with
    | none => (m, [])
    | some slot =>
      let (m, frames) := removeEach (removeTree fuel) (m.detach id slot.placement) slot.view.children
      let (m, closing) := m.deregister slot.view.model id
      (m, frames ++ closing)

/-- Takes down a view. Each step takes one away, so there are no more steps than views. -/
def removeView (m : Manager) (id : ViewId) : Manager × List Frame := removeTree m.views.size m id

/-- The backend closed a comm: its model goes, and then the model's views. -/
def closeComm (m : Manager) (comm : CommId) : Manager × List Frame :=
  match m.models.get? comm with
  | none => (m, [])
  | some model => removeEach removeView { m with models := m.models.erase comm } model.views

end WidgetSync.Manager
