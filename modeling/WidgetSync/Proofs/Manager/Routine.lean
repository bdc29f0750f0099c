import WidgetSync.Proofs.Model.Request
import WidgetSync.Proofs.Manager.Life

/-! What the operations do to models that neither open a comm nor take views down: they ask one model something,
or display it, or leave all models alone. -/
namespace WidgetSync

/-- A model with new views of one group. -/
def Model.enrollAll (m : Model) (group : GroupKey) (ids : List ViewId) : Model :=
  ids.foldl (·.enroll group ·) m

namespace Model

theorem content_enrollAll (m : Model) (group : GroupKey) (ids : List ViewId) :
    (m.enrollAll group ids).content = m.content := by
  induction ids generalizing m with
  | nil => rfl
  | cons id rest ih => exact (ih (m.enroll group id)).trans (m.content_enroll group id)

theorem mem_views_enrollAll {m : Model} {group : GroupKey} {ids : List ViewId} {x : ViewId} :
    x ∈ (m.enrollAll group ids).views ↔ x ∈ m.views ∨ x ∈ ids := by
  induction ids generalizing m with
  | nil => simp [enrollAll]
  | cons id rest ih =>
    have hrest := ih (m := m.enroll group id)
    rw [mem_views_enroll] at hrest
    rw [List.mem_cons, ← or_assoc]
    exact hrest

end Model

namespace Manager

/-- The model that an operation asks something of, and what it asks. -/
def request (m : Manager) : Operation → Option (CommId × Request)
  | .message message =>
    match ModelMessage.ofJson? message.data with
    | none => none
    | some (.display _ _ _) => none
    | some (.update state) => (m.models.get? message.comm).map fun _ => (message.comm, .remote state)
  | .update comm state => (m.models.get? comm).map fun _ => (comm, .remote state)
  | .status comm report => (m.models.get? comm).map fun _ => (comm, .status report)
  | .change view changes =>
    match m.modelOf view with
    | .ok (v, _) => some (v.model, .change view changes)
    | .error _ => none
  | .ui view event =>
    match m.modelOf view with
    | .ok (v, model) =>
      match (v.handleEvent event model).2 with
      | some (.sync changes) => some (v.model, .change view changes)
      | some (.custom content) => some (v.model, .custom view content)
      | none => none
    | .error _ => none
  | .sendCustom view content =>
    match m.modelOf view with
    | .ok (v, _) => some (v.model, .custom view content)
    | .error _ => none
  | _ => none

/-- What an operation asks of the model of one comm. -/
def requestOn (m : Manager) (comm : CommId) (op : Operation) : Option Request :=
  (m.request op).bind fun (c, r) => if c = comm then some r else none

/-- The view that an operation asks to display: the comm of its model, its kind, the parent and the group. -/
def displayOf (m : Manager) : Operation → Option (CommId × String × Option CommId × GroupKey)
  | .display comm name parent group => some (comm, name, parent, group)
  | .message message =>
    match ModelMessage.ofJson? message.data with
    | none => none
    | some (.display name parent cell) =>
      some (message.comm, name, parent, m.resolveGroup cell message.parentMessage)
    | some (.update _) => none
  | _ => none

/-- The comm whose model an operation displays. -/
def displayed? (m : Manager) (op : Operation) : Option CommId :=
  (m.displayOf op).bind fun (comm, name, parent, group) =>
    (m.display comm name parent group).toOption.map fun _ => comm

variable {m : Manager}

/-! ### Requests -/

/-- A live model is asked to take an update, whichever way it comes. -/
theorem request_update {comm : CommId} {model : Model} (hm : m.models.get? comm = some model) (state : Attributes) :
    m.request (.update comm state) = some (comm, .remote state) := by
  rw [request, hm]
  rfl

theorem request_message {message : CommMessage} {model : Model} {state : Attributes}
    (hm : m.models.get? message.comm = some model) (hj : ModelMessage.ofJson? message.data = some (.update state)) :
    m.request (.message message) = some (message.comm, .remote state) := by
  simp [request, hj, hm]

theorem refresh_models (m : Manager) (ids : List ViewId) : (ids.foldl refreshView m).models = m.models := by
  induction ids generalizing m with
  | nil => rfl
  | cons id rest ih => exact ih (m.refreshView id)

theorem update_models {comm : CommId} {model : Model} (hm : m.models.get? comm = some model)
    (state : Attributes) :
    (m.update comm state).1.models = m.models.insert comm (model.ask (.remote state)).1 := by
  simp only [update, hm, refreshViews, refresh_models, Model.ask_remote, setModel]

theorem change_models {caller : ViewId} {view : View} {model : Model}
    (h : m.modelOf caller = .ok (view, model)) (changes : Attributes) :
    ∃ m' frames state, m.change caller changes = .ok (m', frames, state) ∧
      m'.models = m.models.insert view.model (model.ask (.change caller changes)).1 ∧
      frames = (model.ask (.change caller changes)).2 := by
  rw [Model.ask_change, change, h]
  refine ⟨_, _, _, rfl, ?_, rfl⟩
  rw [refreshViews, refresh_models]
  rfl

theorem sendCustom_models {id : ViewId} {view : View} {model : Model}
    (h : m.modelOf id = .ok (view, model)) (content : Value) :
    ∃ m' frames, m.sendCustom id content = .ok (m', frames) ∧
      m'.models = m.models.insert view.model (model.ask (.custom id content)).1 ∧
      frames = (model.ask (.custom id content)).2 := by
  rw [Model.ask_custom, sendCustom, h]
  exact ⟨_, _, rfl, rfl, rfl⟩

/-- An operation asks a model what `request` says, and the model sends what there is to send. -/
structure Asks (m : Manager) (op : Operation) (comm : CommId) (r : Request) (model : Model) : Prop where
  live : m.models.get? comm = some model
  models : (m.step op).manager.models = m.models.insert comm (model.ask r).1
  frames : (m.step op).frames = (model.ask r).2

theorem asks_update {comm : CommId} {model : Model} (hm : m.models.get? comm = some model)
    (state : Attributes) : m.Asks (.update comm state) comm (.remote state) model where
  live := hm
  models := update_models hm state
  frames := by
    rw [Model.ask_remote]
    rfl

theorem asks_change {view : ViewId} {v : View} {model : Model} (h : m.modelOf view = .ok (v, model))
    (changes : Attributes) :
    m.Asks (.change view changes) v.model (.change view changes) model := by
  obtain ⟨_, _, _, hm⟩ := modelOf_ok h
  obtain ⟨m', frames, state, he, hmodels, hframes⟩ := change_models h changes
  refine ⟨hm, ?_, ?_⟩ <;> rw [step, he]
  · exact hmodels
  · exact hframes

theorem asks_sendCustom {view : ViewId} {v : View} {model : Model}
    (h : m.modelOf view = .ok (v, model)) (content : Value) :
    m.Asks (.sendCustom view content) v.model (.custom view content) model := by
  obtain ⟨_, _, _, hm⟩ := modelOf_ok h
  obtain ⟨m', frames, he, hmodels, hframes⟩ := sendCustom_models h content
  refine ⟨hm, ?_, ?_⟩ <;> rw [step, he]
  · exact hmodels
  · exact hframes

/-- An event may ask the model of its view, after the view was drawn. -/
theorem asks_ui {view : ViewId} {v : View} {model : Model} (h : m.modelOf view = .ok (v, model))
    {event : UiEvent} {r : Request} (hr : m.request (.ui view event) = some (v.model, r)) :
    m.Asks (.ui view event) v.model r model := by
  obtain ⟨_, _, _, hm⟩ := modelOf_ok h
  have hkeeps := (v.handleEvent_keeps event model).1
  simp only [request, h] at hr
  cases he : v.handleEvent event model with
  | mk drawn interaction =>
    rw [he] at hkeeps hr
    have hdrawn := modelOf_draw h hkeeps
    cases interaction with
    | none => simp at hr
    | some interaction =>
      cases interaction with
      | sync changes =>
        obtain rfl : Request.change view changes = r := (Prod.mk.inj (Option.some.inj hr)).2
        obtain ⟨m', frames, state, hc, hmodels, hframes⟩ := change_models hdrawn changes
        rw [hkeeps] at hmodels
        have hui : m.handleUi view event = .ok (m', frames) := by
          simp only [handleUi, h, he]
          show ((m.modifyView view fun _ => drawn).change view changes).map _ = _
          rw [hc]
          rfl
        refine ⟨hm, ?_, ?_⟩ <;> rw [step, hui]
        · exact hmodels
        · exact hframes
      | custom content =>
        obtain rfl : Request.custom view content = r := (Prod.mk.inj (Option.some.inj hr)).2
        obtain ⟨m', frames, hc, hmodels, hframes⟩ := sendCustom_models hdrawn content
        rw [hkeeps] at hmodels
        have hui : m.handleUi view event = .ok (m', frames) := by
          simp only [handleUi, h, he]
          exact hc
        refine ⟨hm, ?_, ?_⟩ <;> rw [step, hui]
        · exact hmodels
        · exact hframes

theorem asks_of_request {op : Operation} {comm : CommId} {r : Request}
    (hr : m.request op = some (comm, r)) : ∃ model, m.Asks op comm r model := by
  cases op with
  | message message =>
    simp only [request] at hr
    split at hr
    · contradiction
    · contradiction
    · next state hd =>
      obtain ⟨model, hm, he⟩ := Option.map_eq_some_iff.mp hr
      obtain ⟨rfl, rfl⟩ := Prod.mk.inj he
      have hc : m.models.contains message.comm = true := OrdMap.contains_iff.mpr ⟨model, hm⟩
      have hstep : m.step (.message message) = m.step (.update message.comm state) := by
        simp [step, Manager.message, hc, hd]
      obtain ⟨_, hmodels, hframes⟩ := asks_update hm state
      rw [← hstep] at hmodels hframes
      exact ⟨model, hm, hmodels, hframes⟩
  | update c state =>
    obtain ⟨model, hm, he⟩ := Option.map_eq_some_iff.mp hr
    obtain ⟨rfl, rfl⟩ := Prod.mk.inj he
    exact ⟨model, asks_update hm state⟩
  | status c report =>
    obtain ⟨model, hm, he⟩ := Option.map_eq_some_iff.mp hr
    obtain ⟨rfl, rfl⟩ := Prod.mk.inj he
    refine ⟨model, hm, ?_, ?_⟩
    · rw [step_status hm, Model.ask_status]
      rfl
    · rw [step_status hm, Model.ask_status]
  | change view changes =>
    cases h : m.modelOf view with
    | error e => simp [request, h] at hr
    | ok found =>
      simp only [request, h] at hr
      obtain ⟨rfl, rfl⟩ := Prod.mk.inj (Option.some.inj hr)
      exact ⟨found.2, asks_change h changes⟩
  | ui view event =>
    cases h : m.modelOf view with
    | error e => simp [request, h] at hr
    | ok found =>
      -- Whatever the event asks, it asks the view's own model.
      have hown : found.1.model = comm := by
        simp only [request, h] at hr
        split at hr
        · exact (Prod.mk.inj (Option.some.inj hr)).1
        · exact (Prod.mk.inj (Option.some.inj hr)).1
        · contradiction
      rw [← hown] at hr ⊢
      exact ⟨found.2, asks_ui h hr⟩
  | sendCustom view content =>
    cases h : m.modelOf view with
    | error e => simp [request, h] at hr
    | ok found =>
      simp only [request, h] at hr
      obtain ⟨rfl, rfl⟩ := Prod.mk.inj (Option.some.inj hr)
      exact ⟨found.2, asks_sendCustom h content⟩
  | _ => simp [request] at hr

/-! ### Displaying -/

theorem get?_createInHosts_models (m : Manager) (kind : ViewKind) (comm : CommId) (group : GroupKey)
    (hosts : List ViewId) (c : CommId) :
    (m.createInHosts kind comm group hosts).1.models.get? c =
      if comm = c then (m.models.get? c).map
        (·.enrollAll group (m.createInHosts kind comm group hosts).2)
      else m.models.get? c := by
  induction hosts generalizing m with
  | nil =>
    have hid : (fun model : Model => model.enrollAll group []) = id := rfl
    simp [createInHosts, hid]
  | cons host rest ih =>
    -- The view in the first host is enrolled before those in the others.
    rw [createInHosts_cons]
    simp only
    rw [ih, get?_place_models]
    split
    · rw [Option.map_map]
      rfl
    · rfl

/-- To display a model gives it new views, one at least, and nothing else. -/
theorem get?_display_models {comm : CommId} {name : String} {parent : Option CommId} {group : GroupKey}
    {m' : Manager} {ids : List ViewId} (hd : m.display comm name parent group = .ok (m', ids)) :
    ids ≠ [] ∧ ∀ c, m'.models.get? c =
      if comm = c then (m.models.get? c).map (·.enrollAll group ids) else m.models.get? c := by
  rw [display] at hd
  split at hd
  · exact absurd hd (by simp)
  · next kind _ =>
    split at hd
    · exact absurd hd (by simp)
    · cases hhosts : m.hosts parent group with
      | nil =>
        rw [hhosts] at hd
        simp only [createInArea_eq] at hd
        obtain ⟨rfl, rfl⟩ := Prod.mk.inj (Except.ok.inj hd)
        refine ⟨List.cons_ne_nil _ _, fun c => ?_⟩
        rw [refresh_models, get?_place_models]
        rfl
      | cons host rest =>
        rw [hhosts] at hd
        obtain ⟨hm', hids⟩ := Prod.mk.inj (Except.ok.inj hd)
        rw [← hm', ← hids]
        refine ⟨List.cons_ne_nil _ _, fun c => ?_⟩
        rw [refresh_models]
        exact get?_createInHosts_models m kind comm group (host :: rest) c

theorem display_of_dead {comm : CommId} (hd : m.models.get? comm = none) (name : String)
    (parent : Option CommId) (group : GroupKey) : ∃ e, m.display comm name parent group = .error e := by
  have hc : m.models.contains comm = false := OrdMap.contains_eq_false_iff.mpr hd
  rw [display]
  split
  · exact ⟨_, rfl⟩
  · rw [hc]
    exact ⟨_, rfl⟩

/-! ### Every operation -/

/-- An operation that leaves all models alone, and sends nothing. -/
structure Quiet (m : Manager) (op : Operation) : Prop where
  request : m.request op = none
  displayed : m.displayed? op = none
  models : (m.step op).manager.models = m.models
  frames : (m.step op).frames = []

/-- An operation that displays a model. -/
structure Displays (m : Manager) (op : Operation) (comm : CommId) (group : GroupKey)
    (ids : List ViewId) : Prop where
  request : m.request op = none
  displayed : m.displayed? op = some comm
  some_view : ids ≠ []
  models : ∀ c, (m.step op).manager.models.get? c =
    if comm = c then (m.models.get? c).map (·.enrollAll group ids) else m.models.get? c
  frames : (m.step op).frames = []

/-- An operation on models, other than to open a comm or to take views down. -/
inductive Routine (m : Manager) (op : Operation) : Prop
  | asks {comm : CommId} {r : Request} {model : Model} (hr : m.request op = some (comm, r))
      (ha : m.Asks op comm r model)
  | displays {comm : CommId} {group : GroupKey} {ids : List ViewId} (hd : m.Displays op comm group ids)
  | quiet (hq : m.Quiet op)

/-- To display a model succeeds, or nothing happens. -/
theorem routine_display {op : Operation} {comm : CommId} {name : String} {parent : Option CommId}
    {group : GroupKey} (hr : m.request op = none)
    (ho : m.displayOf op = some (comm, name, parent, group))
    (hm : (m.step op).manager = (m.display comm name parent group).toOption.elim m (·.1))
    (hf : (m.step op).frames = []) : m.Routine op := by
  have hdisplayed : m.displayed? op =
      (m.display comm name parent group).toOption.map fun _ => comm := by
    simp [displayed?, ho]
  cases hd : m.display comm name parent group with
  | error e =>
    rw [hd] at hm hdisplayed
    exact .quiet ⟨hr, hdisplayed, by rw [hm]; rfl, hf⟩
  | ok shown =>
    rw [hd] at hm hdisplayed
    obtain ⟨hne, hmodels⟩ := get?_display_models hd
    have hafter : (m.step op).manager = shown.1 := hm
    rw [← hafter] at hmodels
    exact .displays ⟨hr, hdisplayed, hne, hmodels, hf⟩

theorem routine_message (m : Manager) (message : CommMessage) : m.Routine (.message message) := by
  cases hj : ModelMessage.ofJson? message.data with
  | none =>
    refine .quiet ⟨by simp [request, hj], by simp [displayed?, displayOf, hj], ?_, rfl⟩
    simp only [step, Manager.message, hj, Outcome.silent]
    split <;> rfl
  | some data =>
    cases data with
    | display name parent cell =>
      have ho : m.displayOf (.message message) =
          some (message.comm, name, parent, m.resolveGroup cell message.parentMessage) := by
        simp [displayOf, hj]
      refine routine_display (by simp [request, hj]) ho ?_ rfl
      simp only [step, Manager.message, hj, Outcome.silent]
      by_cases hc : m.models.contains message.comm = true
      · simp only [hc, Bool.not_true, Bool.false_eq_true, if_false]
        split
        · next hd => rw [hd]; rfl
        · next hd => rw [hd]; rfl
      · -- Nobody is there to be displayed.
        rw [Bool.not_eq_true] at hc
        obtain ⟨e, he⟩ := display_of_dead (OrdMap.contains_eq_false_iff.mp hc) name parent
          (m.resolveGroup cell message.parentMessage)
        simp [hc, he, Except.toOption]
    | update state =>
      cases hm : m.models.get? message.comm with
      | none =>
        have hc := OrdMap.contains_eq_false_iff.mpr hm
        refine .quiet ⟨by simp [request, hj, hm], by simp [displayed?, displayOf, hj], ?_, rfl⟩
        simp [step, Manager.message, hc, Outcome.silent]
      | some model =>
        have hr := request_message hm hj
        obtain ⟨asked, ha⟩ := asks_of_request hr
        exact .asks hr ha

/-- What an operation does to models, unless it opens a comm or takes views down. -/
theorem routine_of_ne {op : Operation} (ho : ∀ request, op ≠ .openComm request)
    (hr : ∀ id, op ≠ .removeView id) (hc : ∀ comm, op ≠ .closeComm comm) : m.Routine op := by
  cases hreq : m.request op with
  | some asked =>
    obtain ⟨model, ha⟩ := asks_of_request hreq
    exact .asks hreq ha
  | none =>
    -- Nothing is asked, so that all but displaying leaves the models alone.
    cases op with
    | openComm request => exact absurd rfl (ho request)
    | removeView id => exact absurd rfl (hr id)
    | closeComm comm => exact absurd rfl (hc comm)
    | message message => exact m.routine_message message
    | display comm name parent group =>
      have ho : m.displayOf (.display comm name parent group) = some (comm, name, parent, group) := rfl
      refine routine_display hreq ho ?_ ?_ <;> rw [step] <;>
        cases m.display comm name parent group <;> rfl
    | registerModel name kind =>
      refine .quiet ⟨hreq, rfl, ?_, ?_⟩ <;> rw [step] <;> cases he : m.registerModel name kind
      · rfl
      · exact (registerModel_around he).models
      · rfl
      · rfl
    | registerView name kind =>
      refine .quiet ⟨hreq, rfl, ?_, ?_⟩ <;> rw [step] <;> cases he : m.registerView name kind
      · rfl
      · exact (registerView_around he).models
      · rfl
      · rfl
    | execute cell message =>
      cases he : m.execute cell message with
      | error e => refine .quiet ⟨hreq, rfl, ?_, ?_⟩ <;> rw [step, he] <;> rfl
      | ok executed =>
        obtain ⟨notebook, _, rfl⟩ := execute_ok he
        refine .quiet ⟨hreq, rfl, ?_, ?_⟩ <;> rw [step, he] <;> rfl
    | registerDefaults => exact .quiet ⟨hreq, rfl, m.registerDefaults_around.models, rfl⟩
    | output comm text => exact .quiet ⟨hreq, rfl, (m.output_around comm text).models, rfl⟩
    | update comm state =>
      have hd : m.models.get? comm = none := Option.map_eq_none_iff.mp hreq
      refine .quiet ⟨hreq, rfl, ?_, rfl⟩
      simp only [step, update, hd, Outcome.silent]
    | status comm report =>
      have hd : m.models.get? comm = none := Option.map_eq_none_iff.mp hreq
      refine .quiet ⟨hreq, rfl, ?_, ?_⟩ <;> simp only [step, status, hd]
    | change view changes =>
      cases h : m.modelOf view with
      | ok found => simp [request, h] at hreq
      | error e =>
        refine .quiet ⟨hreq, rfl, ?_, ?_⟩ <;> rw [step, change, h] <;> rfl
    | sendCustom view content =>
      cases h : m.modelOf view with
      | ok found => simp [request, h] at hreq
      | error e =>
        refine .quiet ⟨hreq, rfl, ?_, ?_⟩ <;> rw [step, sendCustom, h] <;> cases e <;> rfl
    | ui view event =>
      cases h : m.modelOf view with
      | error e => refine .quiet ⟨hreq, rfl, ?_, ?_⟩ <;> rw [step, handleUi, h] <;> rfl
      | ok found =>
        -- The event draws the view and asks for nothing.
        have hnone : (found.1.handleEvent event found.2).2 = none := by
          simp only [request, h] at hreq
          split at hreq
          · contradiction
          · contradiction
          · assumption
        refine .quiet ⟨hreq, rfl, ?_, ?_⟩ <;> simp only [step, handleUi, h, hnone, Outcome.ofExcept]

end Manager

end WidgetSync
