import WidgetSync.Model.Kind
import WidgetSync.View.Interaction
import WidgetSync.Notebook

/-! The manager of a page's widgets: which kinds are known, the live models by comm, and the live views by id.
Models and views name one another by id, and neither owns the other. -/
namespace WidgetSync

/-- Where the element of a view was attached. -/
inductive Placement where
  | area (group : GroupKey)
  | host (view : ViewId)
  deriving DecidableEq

structure Slot where
  view : View
  placement : Placement
  deriving DecidableEq

/-- The live models. -/
abbrev Models := OrdMap CommId Model

/-- The live views, each with where it was placed. -/
abbrev Arena := OrdMap ViewId Slot

structure Manager where
  hub : CommHub
  notebook : Notebook
  modelKinds : OrdMap String ModelKind
  viewKinds : OrdMap String ViewKind
  models : Models
  views : Arena
  /-- The index of the next view; no index is used twice. -/
  nextView : Nat
  /-- The throttle of new models. -/
  throttle : Nat
  deriving DecidableEq

/-- The two kinds of name that can be registered. -/
inductive TypeSort where
  | model
  | view
  deriving DecidableEq, Repr

def TypeSort.name : TypeSort → String
  | .model => "model"
  | .view => "view"

inductive ManagerError where
  | noTarget (target : String)
  | unknownModelType (name : String)
  | alreadyOpen (comm : CommId)
  | unknownComm (comm : CommId)
  | unknownViewType (name : String)
  | unknownView (view : ViewId)
  | emptyTypeName (sort : TypeSort)
  | takenTypeName (sort : TypeSort) (name : String)
  | badState (error : StateError)
  | badCell (error : CellOutOfRange)
  deriving DecidableEq

def ManagerError.message : ManagerError → String
  | .noTarget target => "no comm target registered for " ++ target
  | .unknownModelType name => "unknown widget model type: " ++ name
  | .alreadyOpen comm => "comm " ++ comm.name ++ " is already open"
  | .unknownComm comm => "unknown comm " ++ comm.name
  | .unknownViewType name => "unknown widget view type: " ++ name
  | .unknownView view => "unknown view " ++ view.text
  | .emptyTypeName sort => sort.name ++ " type name must not be empty"
  | .takenTypeName sort name => sort.name ++ " type " ++ name ++ " is already registered"
  | .badState error => error.message
  | .badCell error => error.message

namespace Manager

def new (notebook : Notebook) (throttle : Nat) : Manager where
  hub := .new
  notebook
  modelKinds := ∅
  viewKinds := ∅
  models := ∅
  views := ∅
  nextView := 1
  throttle

/-- A name is not blank, and nobody else has it. -/
def checkTypeName (sort : TypeSort) (name : String) (isTaken : Bool) : Except ManagerError Unit :=
  if name.toList.all Text.isBlank then .error (.emptyTypeName sort)
  else if isTaken then .error (.takenTypeName sort name)
  else .ok ()

/-- Makes a kind of model known; the backend may then open comms for it. -/
def registerModel (m : Manager) (name : String) (kind : ModelKind) : Except ManagerError Manager :=
  (checkTypeName .model name (m.modelKinds.contains name)).map fun _ =>
    { m with hub := m.hub.register name, modelKinds := m.modelKinds.insert name kind }

def registerView (m : Manager) (name : String) (kind : ViewKind) : Except ManagerError Manager :=
  (checkTypeName .view name (m.viewKinds.contains name)).map fun _ =>
    { m with viewKinds := m.viewKinds.insert name kind }

/-- Performs the steps up to the first that fails. -/
def attempt (m : Manager) :
    List (Manager → Except ManagerError Manager) → Manager × Except ManagerError Unit
  | [] => (m, .ok ())
  | step :: rest =>
    match step m with
    | .ok m => m.attempt rest
    | .error e => (m, .error e)

/-- Makes the built-in kinds known under their names. -/
def registerDefaults (m : Manager) : Manager × Except ManagerError Unit :=
  m.attempt ((ModelKind.all.map fun kind m => m.registerModel kind.name kind)
    ++ ViewKind.all.map fun kind m => m.registerView kind.name kind)

/-- A manager that knows the built-in kinds. -/
def withDefaults (notebook : Notebook) (throttle : Nat) : Manager :=
  (new notebook throttle).registerDefaults.1

/-- Opens a comm for a kind of model, with a new model behind it. -/
def openComm (m : Manager) (request : CommOpen) : Except ManagerError Manager :=
  if !m.hub.hasTarget request.target then .error (.noTarget request.target)
  else
    match m.modelKinds.get? request.target with
    | none => .error (.unknownModelType request.target)
    | some kind =>
      if m.models.contains request.comm then .error (.alreadyOpen request.comm)
      else
        let model := (kind.model (m.hub.comm request.comm)).withThrottle m.throttle
        .ok { m with models := m.models.insert request.comm model }

def setModel (m : Manager) (comm : CommId) (model : Model) : Manager :=
  { m with models := m.models.insert comm model }

/-- Draws a view anew from its model. -/
def refreshView (m : Manager) (id : ViewId) : Manager :=
  { m with views := m.views.modify id fun slot =>
      match m.models.get? slot.view.model with
      | some model => { slot with view := slot.view.refresh model }
      | none => slot }

/-- The subscribers of a model. -/
def subscribers (m : Manager) (comm : CommId) : List ViewId :=
  (m.models.get? comm).elim [] Model.subscribers

/-- Draws anew the subscribers of a model, one of them perhaps excepted. -/
def refreshViews (m : Manager) (comm : CommId) (except : Option ViewId) : Manager :=
  ((m.subscribers comm).filter (some · ≠ except)).foldl refreshView m

/-- Merges state from the backend and draws the model's views anew. -/
def update (m : Manager) (comm : CommId) (state : Attributes) : Manager × Except ManagerError Unit :=
  match m.models.get? comm with
  | none => (m, .error (.unknownComm comm))
  | some model =>
    let (model, result) := model.applyRemote state
    ((m.setModel comm model).refreshViews comm none, result.mapError .badState)

def status (m : Manager) (comm : CommId) (report : StatusMessage) : Manager × List Frame :=
  match m.models.get? comm with
  | none => (m, [])
  | some model =>
    let (model, frames) := model.handleStatus report
    (m.setModel comm model, frames)

/-- Output goes to the cell of the view that modified the model last. -/
def output (m : Manager) (comm : CommId) (text : String) : Manager :=
  match m.models.get? comm >>= Model.outputGroup with
  | some (.cell index) => { m with notebook := m.notebook.appendOutput index text }
  | some .detached | none => m

def execute (m : Manager) (cell : Nat) (message : String) : Except ManagerError Manager :=
  match m.notebook.execute cell message with
  | .ok notebook => .ok { m with notebook }
  | .error e => .error (.badCell e)

end Manager

end WidgetSync
