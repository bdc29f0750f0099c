import WidgetSync.Proofs.Manager.Effect
import WidgetSync.Proofs.Model.Freshness
import WidgetSync.Proofs.View.Reaction

/-! What an operation on one comm makes of one view, together with its model. A view is drawn anew when the backend
updates its model or when another view changes it, it draws for itself what the user does to it, and else it looks as it
did. -/
namespace WidgetSync

/-- One view looks like another, and will go on to look like it if both are drawn alike. -/
structure View.SameLook (v v' : View) : Prop where
  model : v'.model = v.model
  kind : v'.kind = v.kind
  element : v'.element = v.element
  isVisible : v'.isVisible = v.isVisible
  styleTarget : v'.styleTarget = v.styleTarget

/-- One model has the state of another, as far as views show it. -/
structure Model.SameState (model model' : Model) : Prop where
  attributes : model'.attributes = model.attributes
  css : model'.css = model.css

/-- The backend updates a comm. -/
def Operation.Brings (op : Operation) (comm : CommId) (state : Attributes) : Prop :=
  op = .update comm state ∨ ∃ message : CommMessage, op = .message message ∧ message.comm = comm ∧
    ModelMessage.ofJson? message.data = some (.update state)

/-- What an operation makes of a view and its model, unless the view changes its model of its own accord. -/
inductive View.Sequel (op : Operation) (id : ViewId) (v : View) (model : Model) : View → Model → Prop
  | kept {v' : View} {model' : Model} (look : v.SameLook v') (state : model.SameState model') :
      Sequel op id v model v' model'
  | updated {state : Attributes} (brings : op.Brings v.model state) :
      Sequel op id v model (v.refresh (model.applyRemote state).1) (model.applyRemote state).1
  | followed {model' : Model} (value : Value) (attributes : model'.attributes = model.attributes.withValue value)
      (css : model'.css = model.css) : Sequel op id v model (v.refresh model') model'
  | acted {model' : Model} {event : UiEvent} (ui : op = .ui id event)
      (attributes : model'.attributes = View.after model.attributes (v.handleEvent event model).2)
      (css : model'.css = model.css) : Sequel op id v model (v.handleEvent event model).1 model'

namespace View

theorem SameLook.refl (v : View) : v.SameLook v := ⟨rfl, rfl, rfl, rfl, rfl⟩

theorem Sequel.owner {op : Operation} {id : ViewId} {v v' : View} {model model' : Model}
    (h : v.Sequel op id model v' model') : v'.model = v.model := by
  cases h with
  | kept look _ => exact look.model
  | updated _ => exact (v.refresh_keeps _).1
  | followed _ _ _ => exact (v.refresh_keeps _).1
  | acted _ _ _ => exact (v.handleEvent_keeps _ _).1

/-- What a view asks to set is its value. -/
theorem handleEvent_sync {v : View} {event : UiEvent} {model : Model} {changes : Attributes}
    (h : (v.handleEvent event model).2 = some (.sync changes)) : ∃ value, changes = .ofList [("value", value)] := by
  rw [handleEvent] at h
  split at h
  · contradiction
  · rcases ViewKind.react_cases model.attributes v.element v.kind event with ⟨value, _, hasked⟩ | ⟨hnot, _⟩
    · exact ⟨value, (Interaction.sync.inj (Option.some.inj (hasked.symm.trans h))).symm⟩
    · exact absurd h (hnot changes)

end View

namespace Model

theorem SameState.refl (model : Model) : model.SameState model := ⟨rfl, rfl⟩

/-- A view changes no styles. -/
theorem ask_change_css (model : Model) (view : ViewId) (changes : Attributes) :
    (model.ask (.change view changes)).1.css = model.css := by
  rw [ask_change]
  rcases ((model.setLastModified view).set changes).requestSync_cases changes true with he | ⟨_, he⟩ | ⟨_, he⟩ <;>
    rw [he] <;> rfl

theorem sameState_custom (model : Model) (view : ViewId) (content : Value) :
    model.SameState (model.ask (.custom view content)).1 := by
  rw [ask_custom]
  exact ⟨rfl, rfl⟩

theorem sameState_status (model : Model) (report : StatusMessage) :
    model.SameState (model.ask (.status report)).1 := by
  rw [ask_status]
  by_cases hi : report.state = .idle
  · have he : model.handleStatus report = model.onIdle := by rw [handleStatus, hi]
    rw [he]
    rcases model.onIdle_cases with ⟨_, h⟩ | ⟨_, _, _, h⟩ <;> rw [h] <;> exact ⟨rfl, rfl⟩
  · rw [handleStatus_of_ne_idle hi]
    exact .refl model

end Model

namespace Manager

open View

variable {m : Manager} {comm : CommId} {model : Model} {op : Operation} {id : ViewId}

/-! ### Operations on one comm -/

theorem ui_sequel {view : ViewId} {slot : Slot} (hs : m.views.get? view = some slot)
    (hm : m.models.get? slot.view.model = some model) (event : UiEvent) {other : Slot}
    (ho : m.views.get? id = some other) :
    let e := (Operation.ui view event).effect model (m.requestOn slot.view.model (.ui view event))
    other.view.Sequel (.ui view event) id model (e.draw id other.view) e.model := by
  have hf := modelOf_eq hs hm
  have htouch : (Operation.ui view event).touch model id other.view =
      if id = view then (other.view.handleEvent event model).1 else other.view := rfl
  have hsame (hx : id = view) : other = slot := by
    rw [hx] at ho
    exact Option.some.inj (ho.symm.trans hs)
  -- The view itself has drawn what it made of the event; whether the others are drawn depends on what it asks for.
  cases hasked : (slot.view.handleEvent event model).2 with
  | none =>
    have hr : m.request (.ui view event) = none := by simp only [request, hf, hasked]
    rw [requestOn_of_none hr]
    simp only [Operation.effect, htouch]
    split
    · next hx =>
      refine .acted (hx ▸ rfl) ?_ rfl
      rw [hsame hx, hasked]
      rfl
    · exact .kept (.refl _) (.refl _)
  | some interaction =>
    cases interaction with
    | sync changes =>
      have hr : m.request (.ui view event) = some (slot.view.model, .change view changes) := by
        simp only [request, hf, hasked]
      have hattributes := model.ask_change_attributes view changes
      have hcss := model.ask_change_css view changes
      rw [requestOn_self hr]
      simp only [Operation.effect, Request.draw, htouch]
      split
      · next hx =>
        refine .acted (hx ▸ rfl) ?_ hcss
        rw [hsame hx, hasked, hattributes]
        rfl
      · obtain ⟨value, rfl⟩ := handleEvent_sync hasked
        exact .followed value hattributes hcss
    | custom content =>
      have hr : m.request (.ui view event) = some (slot.view.model, .custom view content) := by
        simp only [request, hf, hasked]
      obtain ⟨hattributes, hcss⟩ := model.sameState_custom view content
      rw [requestOn_self hr]
      simp only [Operation.effect, Request.draw, htouch]
      split
      · next hx =>
        refine .acted (hx ▸ rfl) ?_ hcss
        rw [hsame hx, hasked, hattributes]
        rfl
      · exact .kept (.refl _) ⟨hattributes, hcss⟩

/-- A model that the backend updates is asked to take the update. -/
theorem request_of_brings {state : Attributes} (hm : m.models.get? comm = some model) (h : op.Brings comm state) :
    m.about op = some comm ∧ m.request op = some (comm, .remote state) := by
  rcases h with rfl | ⟨message, rfl, rfl, hj⟩
  · exact ⟨rfl, request_update hm state⟩
  · refine ⟨?_, request_message hm hj⟩
    rw [about, hj]

/-- The views of a comm, unless one of them changes the model of its own accord. -/
theorem affects_sequel (hb : m.about op = some comm) (hm : m.models.get? comm = some model) {slot : Slot}
    (hs : m.views.get? id = some slot) (hc : slot.view.model = comm) (hop : ∀ view changes, op ≠ .change view changes) :
    let e := op.effect model (m.requestOn comm op)
    slot.view.Sequel op id model (e.draw id slot.view) e.model := by
  have howner {view : ViewId} (hv : m.views.owner view = some comm) :
      ∃ vslot, m.views.get? view = some vslot ∧ vslot.view.model = comm ∧
        m.modelOf view = .ok (vslot.view, model) := by
    obtain ⟨vslot, hvs, hvc⟩ := Option.map_eq_some_iff.mp hv
    refine ⟨vslot, hvs, hvc, ?_⟩
    simp only [modelOf, hvs, hvc, hm]
  have hremote {state : Attributes} (hbrings : op.Brings comm state) :
      m.requestOn comm op = some (.remote state) ∧
        slot.view.Sequel op id model (slot.view.refresh (model.ask (.remote state)).1)
          (model.ask (.remote state)).1 := by
    refine ⟨requestOn_self (request_of_brings hm hbrings).2, ?_⟩
    rw [Model.ask_remote]
    exact .updated (hc ▸ hbrings)
  cases op with
  | ui view event =>
    obtain ⟨vslot, hvs, rfl, _⟩ := howner hb
    exact ui_sequel hvs hm event hs
  | change caller changes => exact absurd rfl (hop caller changes)
  | sendCustom view content =>
    obtain ⟨vslot, _, hvc, hf⟩ := howner hb
    have hr : m.request (.sendCustom view content) = some (comm, .custom view content) := by
      simp only [request, hf, hvc]
    rw [requestOn_self hr]
    exact .kept (.refl _) (model.sameState_custom view content)
  | status c report =>
    obtain rfl := Option.some.inj hb
    rw [requestOn_status hm]
    exact .kept (.refl _) (model.sameState_status report)
  | update c state =>
    obtain rfl := Option.some.inj hb
    obtain ⟨hr, hsequel⟩ := hremote (.inl rfl)
    rw [hr]
    exact hsequel
  | message message =>
    cases hj : ModelMessage.ofJson? message.data with
    | none =>
      have hr : m.request (.message message) = none := by simp [request, hj]
      rw [requestOn_of_none hr]
      exact .kept (.refl _) (.refl _)
    | some data =>
      cases data with
      | display name parent cell => simp [about, hj] at hb
      | update state =>
        obtain rfl : message.comm = comm := by simpa [about, hj] using hb
        obtain ⟨hr, hsequel⟩ := hremote (.inr ⟨message, rfl, rfl, hj⟩)
        rw [hr]
        exact hsequel
  | _ => contradiction

/-! ### Drawing anew -/

/-- An operation draws a view anew: the backend updates its model, or the user has another view change it. -/
inductive Redraws (m : Manager) (op : Operation) (id : ViewId) : Prop
  | updated {slot : Slot} {state : Attributes} (live : m.views.get? id = some slot)
      (brings : op.Brings slot.view.model state) : Redraws m op id
  | changed {slot acting : Slot} {model : Model} {view : ViewId} {event : UiEvent} {changes : Attributes}
      (live : m.views.get? id = some slot) (ui : op = .ui view event) (ne : id ≠ view)
      (acts : m.views.get? view = some acting) (same : acting.view.model = slot.view.model)
      (owner : m.models.get? acting.view.model = some model)
      (asks : (acting.view.handleEvent event model).2 = some (.sync changes)) : Redraws m op id

/-- A view that is drawn anew is refreshed from its model as the operation leaves it. -/
theorem Consistent.refreshed (h : m.Consistent) (hr : m.Redraws op id) {slot slot' : Slot} {model' : Model}
    (hs : m.views.get? id = some slot) (hs' : (m.step op).manager.views.get? id = some slot')
    (hm' : (m.step op).manager.models.get? slot'.view.model = some model') :
    slot'.view = slot.view.refresh model' := by
  obtain ⟨model, hm, _⟩ := h.registered id slot hs
  have hdrawn {r : Request} (hb : m.about op = some slot.view.model) (ha : m.request op = some (slot.view.model, r))
      (hd : (op.effect model (some r)).draw id slot.view = slot.view.refresh (model.ask r).1) :
      slot'.view = slot.view.refresh model' := by
    rw [(h.affects hb hm).manager, requestOn_self ha] at hs' hm'
    rw [get?_undergo_views, hs, Option.map_some, Slot.redraw, if_pos rfl, hd] at hs'
    obtain rfl := Option.some.inj hs'
    have hmodel : some (model.ask r).1 = some model' := by
      rw [← hm', undergo, (slot.view.refresh_keeps _).1, OrdMap.get?_insert_eq, if_pos rfl]
      rfl
    rw [Option.some.inj hmodel]
  cases hr with
  | updated live brings =>
    obtain rfl := Option.some.inj (hs.symm.trans live)
    obtain ⟨hb, ha⟩ := request_of_brings hm brings
    refine hdrawn hb ha ?_
    rcases brings with rfl | ⟨_, rfl, _⟩ <;> rfl
  | @changed _ acting _ view event changes live ui ne acts same owner asks =>
    obtain rfl := Option.some.inj (hs.symm.trans live)
    subst ui
    have hb : m.about (.ui view event) = some slot.view.model := by
      rw [about, Arena.owner, acts, Option.map_some, same]
    have ha : m.request (.ui view event) = some (slot.view.model, .change view changes) := by
      simp only [request, modelOf_eq acts owner, asks, same]
    refine hdrawn hb ha ?_
    simp only [Operation.effect, Request.draw, Operation.touch, if_neg ne]

end Manager

end WidgetSync
