import WidgetSync.Proofs.Manager.Step

/-! The operations as procedures, which change the manager and send frames as they go, and keep what they did when they
fail on the way. Every check stands where the program makes it, so that what is left behind by a failure can be seen. -/
namespace WidgetSync

/-- A procedure on a manager and the frames that are sent. -/
abbrev Procedure (α : Type) := ExceptT ManagerError (StateM (Manager × List Frame)) α

namespace Procedure

/-- Reads something off the manager. -/
def look {α : Type} (f : Manager → α) : Procedure α := do return f (← get).1

def alter (f : Manager → Manager) : Procedure Unit := modify fun (m, frames) => (f m, frames)

def emit (frames : List Frame) : Procedure Unit := modify fun (m, sent) => (m, sent ++ frames)

/-- What a procedure comes to, from a manager and the frames sent until then. -/
def perform {α : Type} (p : Procedure α) (s : Manager × List Frame) : Except ManagerError α × Manager × List Frame :=
  p.run.run s

def outcome (p : Procedure Reply) (m : Manager) : Outcome :=
  let (reply, manager, frames) := p.perform (m, [])
  ⟨manager, frames, reply⟩

/-- Changes a model, which may send something. -/
def alterModel (comm : CommId) (model : Model) (frames : List Frame) : Procedure Unit := do
  alter (·.setModel comm model)
  emit frames

def checkTypeName (sort : TypeSort) (name : String) (isTaken : Bool) : Procedure Unit := do
  if name.toList.all Text.isBlank then throw (.emptyTypeName sort)
  if isTaken then throw (.takenTypeName sort name)

def registerModel (name : String) (kind : ModelKind) : Procedure Reply := do
  checkTypeName .model name (← look (·.modelKinds.contains name))
  alter fun m => { m with hub := m.hub.register name }
  alter fun m => { m with modelKinds := m.modelKinds.insert name kind }
  return .done

def registerView (name : String) (kind : ViewKind) : Procedure Reply := do
  checkTypeName .view name (← look (·.viewKinds.contains name))
  alter fun m => { m with viewKinds := m.viewKinds.insert name kind }
  return .done

def openComm (request : CommOpen) : Procedure Reply := do
  if !(← look (·.hub.hasTarget request.target)) then throw (.noTarget request.target)
  let some kind ← look (·.modelKinds.get? request.target) | throw (.unknownModelType request.target)
  if ← look (·.models.contains request.comm) then throw (.alreadyOpen request.comm)
  let comm ← look (·.hub.comm request.comm)
  let throttle ← look (·.throttle)
  alter (·.setModel request.comm ((kind.model comm).withThrottle throttle))
  return .opened request.comm

/-- Creates the views of a display, which cannot fail any more, and draws them. -/
def display (comm : CommId) (viewName : String) (parent : Option CommId) (group : GroupKey) :
    Procedure (List ViewId) := do
  let some kind ← look (·.viewKinds.get? viewName) | throw (.unknownViewType viewName)
  if !(← look (·.models.contains comm)) then throw (.unknownComm comm)
  let hosts ← look (·.hosts parent group)
  let (shown, ids) ← look fun m =>
    if hosts.isEmpty then
      let (m, id) := m.createInArea kind comm group
      (m, [id])
    else m.createInHosts kind comm group hosts
  alter fun _ => shown
  alter fun m => ids.foldl Manager.refreshView m
  return ids

def update (comm : CommId) (state : Attributes) : Procedure Unit := do
  let some model ← look (·.models.get? comm) | throw (.unknownComm comm)
  let (merged, result) := model.applyRemote state
  alter (·.setModel comm merged)
  alter (·.refreshViews comm none)
  match result with
  | .ok () => return
  | .error e => throw (.badState e)

def message (told : CommMessage) : Procedure Unit := do
  if !(← look (·.models.contains told.comm)) then return
  match ModelMessage.ofJson? told.data with
  | none => return
  | some (.display viewName parent cell) =>
    let group ← look (·.resolveGroup cell told.parentMessage)
    let _ ← display told.comm viewName parent group
    return
  | some (.update state) => update told.comm state

/-- The model of a live view. -/
def modelOf (id : ViewId) : Procedure (View × Model) := do
  let some slot ← look (·.views.get? id) | throw (.unknownView id)
  let some model ← look (·.models.get? slot.view.model) | throw (.unknownComm slot.view.model)
  return (slot.view, model)

/-- A change by a view: the model takes it, tells the backend, and the other views are drawn. -/
def change (caller : ViewId) (changes : Attributes) : Procedure Attributes := do
  let (view, model) ← modelOf caller
  let model := model.setLastModified caller
  alter (·.setModel view.model model)
  let model := model.set changes
  alter (·.setModel view.model model)
  let (synced, frames) := model.requestSync changes true
  alterModel view.model synced frames
  alter (·.refreshViews view.model (some caller))
  return model.attributes

/-- Data of a view goes out through its model. -/
def speak (id : ViewId) (comm : CommId) (model : Model) (content : Value) : Procedure Unit := do
  let model := model.setLastModified id
  alterModel comm model (model.sendCustom content)

def handleUi (id : ViewId) (event : UiEvent) : Procedure Unit := do
  let (view, model) ← modelOf id
  let (drawn, interaction) := view.handleEvent event model
  -- The view has drawn itself before it is known what it asks for.
  alter (·.modifyView id fun _ => drawn)
  match interaction with
  | none => return
  | some (.sync changes) =>
    let _ ← change id changes
    return
  | some (.custom content) => speak id view.model model content

def sendCustom (id : ViewId) (content : Value) : Procedure Unit := do
  let some slot ← look (·.views.get? id) | throw (.unknownView id)
  match ← look (·.models.get? slot.view.model) with
  | none => return
  | some model => speak id slot.view.model model content

def execute (cell : Nat) (message : String) : Procedure Unit := do
  let count ← look (·.notebook.count)
  if count + Notebook.maxNewCells ≤ cell then throw (.badCell ⟨cell, count⟩)
  let write (f : Notebook → Notebook) := alter fun m => { m with notebook := f m.notebook }
  if count ≤ cell then write fun n => { n with cells := n.padded (cell + 1) }
  write fun n => { n with cells := n.cells.modify cell fun c => { c with lastMessage := some message } }
  write fun n => { n with selected := some cell }

end Procedure

/-- The procedure of an operation that can fail. -/
def Operation.procedure? : Operation → Option (Procedure Reply)
  | .registerModel name kind => some (.registerModel name kind)
  | .registerView name kind => some (.registerView name kind)
  | .openComm request => some (.openComm request)
  | .message told => some do
      Procedure.message told
      return .done
  | .update comm state => some do
      Procedure.update comm state
      return .done
  | .execute cell request => some do
      Procedure.execute cell request
      return .done
  | .display comm viewName parent group => some do
      return .displayed (← Procedure.display comm viewName parent group)
  | .change view changes => some do
      return .changed (← Procedure.change view changes)
  | .ui view event => some do
      Procedure.handleUi view event
      return .done
  | .sendCustom view content => some do
      Procedure.sendCustom view content
      return .done
  | _ => none

namespace Procedure

section Perform

variable {α β : Type} (s : Manager × List Frame)

@[simp] theorem perform_pure (a : α) : perform (pure a) s = (.ok a, s) := rfl

@[simp] theorem perform_throw (e : ManagerError) : perform (throw e : Procedure α) s = (.error e, s) := rfl

@[simp] theorem perform_look (f : Manager → α) : perform (look f) s = (.ok (f s.1), s) := rfl

@[simp] theorem perform_alter (f : Manager → Manager) : perform (alter f) s = (.ok (), f s.1, s.2) := rfl

@[simp] theorem perform_emit (frames : List Frame) : perform (emit frames) s = (.ok (), s.1, s.2 ++ frames) := rfl

/-- What follows a failure is not performed, and what went before it stays. -/
@[simp] theorem perform_bind (p : Procedure α) (f : α → Procedure β) :
    perform (p >>= f) s =
      match perform p s with
      | (.ok a, s') => perform (f a) s'
      | (.error e, s') => (.error e, s') := by
  simp only [perform, ExceptT.run_bind, StateT.run_bind]
  rcases p.run.run s with ⟨_ | _, _⟩ <;> rfl

@[simp] theorem perform_map (f : α → β) (p : Procedure α) :
    perform (f <$> p) s = ((perform p s).1.map f, (perform p s).2) := by
  rw [map_eq_pure_bind, perform_bind]
  rcases perform p s with ⟨_ | _, _⟩ <;> rfl

end Perform

variable (m : Manager)

theorem registerModel_outcome (name : String) (kind : ModelKind) :
    (registerModel name kind).outcome m = m.step (.registerModel name kind) := by
  simp only [outcome, registerModel, checkTypeName, Manager.step, Manager.registerModel, Manager.checkTypeName]
  by_cases hblank : name.toList.all Text.isBlank = true
  · simp [hblank, Outcome.ofExcept, Except.map]
  · by_cases htaken : m.modelKinds.contains name = true
    · simp [hblank, htaken, Outcome.ofExcept, Except.map]
    · simp [hblank, htaken, Outcome.ofExcept, Except.map]

theorem registerView_outcome (name : String) (kind : ViewKind) :
    (registerView name kind).outcome m = m.step (.registerView name kind) := by
  simp only [outcome, registerView, checkTypeName, Manager.step, Manager.registerView, Manager.checkTypeName]
  by_cases hblank : name.toList.all Text.isBlank = true
  · simp [hblank, Outcome.ofExcept, Except.map]
  · by_cases htaken : m.viewKinds.contains name = true
    · simp [hblank, htaken, Outcome.ofExcept, Except.map]
    · simp [hblank, htaken, Outcome.ofExcept, Except.map]

theorem openComm_outcome (request : CommOpen) :
    (openComm request).outcome m = m.step (.openComm request) := by
  simp only [outcome, openComm, Manager.step, Manager.openComm]
  by_cases htarget : m.hub.hasTarget request.target = true
  · cases hkind : m.modelKinds.get? request.target with
    | none => simp [htarget, hkind, Outcome.ofExcept]
    | some kind =>
      by_cases hopen : m.models.contains request.comm = true
      · simp [htarget, hkind, hopen, Outcome.ofExcept]
      · simp [htarget, hkind, hopen, Outcome.ofExcept, Manager.setModel, Except.map]
  · simp [htarget, Outcome.ofExcept]

/-- A display makes all its checks before it creates the first view. -/
theorem perform_display (comm : CommId) (viewName : String) (parent : Option CommId) (group : GroupKey)
    (frames : List Frame) :
    perform (display comm viewName parent group) (m, frames) =
      match m.display comm viewName parent group with
      | .ok (m', ids) => (.ok ids, m', frames)
      | .error e => (.error e, m, frames) := by
  simp only [display, Manager.display]
  cases hkind : m.viewKinds.get? viewName with
  | none => simp [hkind]
  | some kind =>
    by_cases hopen : m.models.contains comm = true
    · cases hhosts : m.hosts parent group with
      | nil => simp [hkind, hopen, hhosts, Except.map]
      | cons host rest => simp [hkind, hopen, hhosts, Except.map]
    · simp [hkind, hopen]

/-- An update draws the views of the model before it tells of a fault. -/
theorem perform_update (comm : CommId) (state : Attributes) (frames : List Frame) :
    perform (update comm state) (m, frames) =
      ((m.update comm state).2, (m.update comm state).1, frames) := by
  simp only [update, Manager.update]
  cases hm : m.models.get? comm with
  | none => simp [hm]
  | some model =>
    rcases hmerged : model.applyRemote state with ⟨merged, _ | _⟩
    · simp [hm, hmerged, Except.mapError]
    · simp [hm, hmerged, Except.mapError]

theorem message_outcome (told : CommMessage) :
    (do message told; return .done : Procedure Reply).outcome m = m.step (.message told) := by
  simp only [outcome, message, Manager.step, Manager.message]
  by_cases hopen : m.models.contains told.comm = true
  · cases hdata : ModelMessage.ofJson? told.data with
    | none => simp [hopen, Outcome.silent, Except.map]
    | some data =>
      cases data with
      | display viewName parent cell =>
        cases hshown : m.display told.comm viewName parent (m.resolveGroup cell told.parentMessage) with
        | error e => simp [hopen, perform_display, hshown, Outcome.silent, Except.map]
        | ok shown => simp [hopen, perform_display, hshown, Outcome.silent, Except.map]
      | update state => simp [hopen, perform_update, Outcome.silent]
  · simp [hopen, Outcome.silent, Except.map]

theorem perform_modelOf (id : ViewId) (frames : List Frame) :
    perform (modelOf id) (m, frames) = (m.modelOf id, m, frames) := by
  simp only [modelOf, Manager.modelOf]
  cases hview : m.views.get? id with
  | none => simp [hview]
  | some slot => cases hmodel : m.models.get? slot.view.model <;> simp [hview, hmodel]

/-- One model put in the place of another, which was put in the place of a third. -/
theorem setModel_setModel (comm : CommId) (model model' : Model) :
    (m.setModel comm model).setModel comm model' = m.setModel comm model' := by
  have hmodels : (m.models.insert comm model).insert comm model' = m.models.insert comm model' := by
    refine OrdMap.ext fun c => ?_
    simp only [OrdMap.get?_insert_eq]
    split <;> rfl
  simp only [Manager.setModel, hmodels]

/-- A change looks for the view and its model before it changes anything. -/
theorem perform_change (caller : ViewId) (changes : Attributes) (frames : List Frame) :
    perform (change caller changes) (m, frames) =
      match m.change caller changes with
      | .ok (m', sent, state) => (.ok state, m', frames ++ sent)
      | .error e => (.error e, m, frames) := by
  simp only [change, Manager.change]
  cases hfound : m.modelOf caller with
  | error e => simp [perform_modelOf, hfound]
  | ok found => simp [perform_modelOf, hfound, alterModel, setModel_setModel, Except.map]

theorem perform_speak (id : ViewId) (comm : CommId) (model : Model) (content : Value) (frames : List Frame) :
    perform (speak id comm model content) (m, frames) =
      (.ok (), m.setModel comm (model.setLastModified id),
        frames ++ (model.setLastModified id).sendCustom content) := by
  simp [speak, alterModel]

theorem handleUi_outcome (id : ViewId) (event : UiEvent) :
    (do handleUi id event; return .done : Procedure Reply).outcome m = m.step (.ui id event) := by
  simp only [outcome, handleUi, Manager.step, Manager.handleUi]
  cases hfound : m.modelOf id with
  | error e => simp [perform_modelOf, hfound, Outcome.ofExcept]
  | ok found =>
    obtain ⟨view, model⟩ := found
    have hkeeps := (view.handleEvent_keeps event model).1
    cases hreact : view.handleEvent event model with
    | mk drawn interaction =>
      rw [hreact] at hkeeps
      -- The view that was drawn is found again, with the same model, so that what it asks for cannot fail.
      have hagain : ({ m with views := m.views.modify id fun slot => { slot with view := drawn } } : Manager).modelOf id
          = .ok (drawn, model) := Manager.modelOf_draw hfound hkeeps
      cases interaction with
      | none => simp [perform_modelOf, hfound, hreact, Outcome.ofExcept, Except.map, Manager.modifyView]
      | some interaction =>
        cases interaction with
        | sync changes =>
          simp [perform_modelOf, hfound, hreact, perform_change, Manager.modifyView, Manager.change, hagain,
            Outcome.ofExcept, Except.map]
        | custom content =>
          have hcomm : drawn.model = view.model := hkeeps
          simp [perform_modelOf, hfound, hreact, perform_speak, Manager.modifyView, Manager.sendCustom, hagain,
            Outcome.ofExcept, Except.map, hcomm]

theorem sendCustom_outcome (id : ViewId) (content : Value) :
    (do sendCustom id content; return .done : Procedure Reply).outcome m = m.step (.sendCustom id content) := by
  simp only [outcome, sendCustom, Manager.step, Manager.sendCustom, Manager.modelOf]
  cases hview : m.views.get? id with
  | none => simp [hview, Outcome.ofExcept]
  | some slot =>
    cases hmodel : m.models.get? slot.view.model with
    | none => simp [hview, hmodel, Outcome.ofExcept]
    | some model => simp [hview, hmodel, perform_speak, Outcome.ofExcept, Except.map]

/-- An execution compares the index with the cells before it adds any. -/
theorem execute_outcome (cell : Nat) (request : String) :
    (do execute cell request; return .done : Procedure Reply).outcome m = m.step (.execute cell request) := by
  simp only [outcome, execute, Manager.step, Manager.execute, Notebook.execute]
  by_cases hfar : m.notebook.count + Notebook.maxNewCells ≤ cell
  · simp [hfar, Outcome.ofExcept]
  · by_cases hnew : m.notebook.count ≤ cell
    · simp [hfar, hnew, Outcome.ofExcept, Except.map]
    · have hpadded : m.notebook.padded (cell + 1) = m.notebook.cells := by
        have hnone : cell + 1 - m.notebook.count = 0 := by omega
        rw [Notebook.padded, hnone, List.replicate_zero, List.append_nil]
      simp [hfar, hnew, hpadded, Outcome.ofExcept, Except.map]

/-- Step by step, an operation comes to what it comes to at once. -/
theorem outcome_of_procedure? {op : Operation} {p : Procedure Reply} (hp : op.procedure? = some p) :
    p.outcome m = m.step op := by
  cases op with
  | registerModel name kind =>
    obtain rfl := Option.some.inj hp
    exact registerModel_outcome m name kind
  | registerView name kind =>
    obtain rfl := Option.some.inj hp
    exact registerView_outcome m name kind
  | openComm request =>
    obtain rfl := Option.some.inj hp
    exact openComm_outcome m request
  | message told =>
    obtain rfl := Option.some.inj hp
    exact message_outcome m told
  | update comm state =>
    obtain rfl := Option.some.inj hp
    simp [outcome, perform_update, Manager.step, Outcome.silent]
  | execute cell request =>
    obtain rfl := Option.some.inj hp
    exact execute_outcome m cell request
  | display comm viewName parent group =>
    obtain rfl := Option.some.inj hp
    cases hshown : m.display comm viewName parent group with
    | error e => simp [outcome, perform_display, Manager.step, hshown, Outcome.ofExcept, Except.map]
    | ok shown => simp [outcome, perform_display, Manager.step, hshown, Outcome.ofExcept, Except.map]
  | change view changes =>
    obtain rfl := Option.some.inj hp
    cases hchanged : m.change view changes with
    | error e => simp [outcome, perform_change, Manager.step, hchanged, Outcome.ofExcept, Except.map]
    | ok changed => simp [outcome, perform_change, Manager.step, hchanged, Outcome.ofExcept, Except.map]
  | ui view event =>
    obtain rfl := Option.some.inj hp
    exact handleUi_outcome m view event
  | sendCustom view content =>
    obtain rfl := Option.some.inj hp
    exact sendCustom_outcome m view content
  | _ => contradiction

end Procedure

end WidgetSync
