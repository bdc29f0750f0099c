import WidgetSync.Proofs.Manager.Freshness
import WidgetSync.Proofs.View.Number

/-! What comes of an event of the user. Either the view has nothing to ask for and shows what it showed, and then
nothing has happened; or its model is asked once, and the backend is told at once or later. -/
namespace WidgetSync

namespace ViewKind

/-- The events that a kind of view reacts to. -/
inductive ReactsTo : ViewKind → UiEvent → Prop
  | button : ReactsTo .button .click
  | checkbox : ReactsTo .checkbox .click
  | toggleButton : ReactsTo .toggleButton .click
  | intText (text : String) : ReactsTo .intText (.input text)
  | intSlider (n : Int64) : ReactsTo .intSlider (.slide n)

theorem react_of_not_reactsTo {kind : ViewKind} {event : UiEvent} (h : ¬kind.ReactsTo event) (a : Attributes)
    (e : Element) : kind.react a e event = (e, none) := by
  cases kind with
  | plain | progress | container => cases event <;> rfl
  | button =>
    cases event with
    | click => exact absurd .button h
    | _ => rfl
  | checkbox =>
    cases event with
    | click => exact absurd .checkbox h
    | _ => rfl
  | toggleButton =>
    cases event with
    | click => exact absurd .toggleButton h
    | _ => rfl
  | intText =>
    cases event with
    | input text => exact absurd (.intText text) h
    | _ => rfl
  | intSlider =>
    cases event with
    | slide n => exact absurd (.intSlider n) h
    | _ => rfl

end ViewKind

namespace View

/-- The model is disabled, or views of this kind do not react to the event, or it is a text that denotes no number. -/
def Rejects (v : View) (event : UiEvent) (m : Model) : Prop :=
  m.attributes.get? "disabled" = some (.ofBool true) ∨ ¬v.kind.ReactsTo event ∨
    ∃ text, event = .input text ∧ ∀ n, ¬Text.Denotes text.toList n

variable {v : View} {event : UiEvent} {m : Model}

theorem handleEvent_of_not_reactsTo (h : ¬v.kind.ReactsTo event) (m : Model) : v.handleEvent event m = (v, none) := by
  simp only [handleEvent, ViewKind.react_of_not_reactsTo h, ite_self]

theorem handleEvent_of_rejects (h : v.Rejects event m) : v.handleEvent event m = (v, none) := by
  rcases h with hdisabled | hkind | ⟨text, rfl, htext⟩
  · exact handleEvent_of_disabled (Attributes.isDisabled_iff.mpr hdisabled) v event
  · exact handleEvent_of_not_reactsTo hkind m
  · by_cases hk : v.kind = .intText
    · exact handleEvent_box_of_not_denotes hk htext
    · -- No other kind takes input.
      refine handleEvent_of_not_reactsTo (fun hreacts => hk ?_) m
      generalize v.kind = kind at hreacts
      cases hreacts
      rfl

section Click

variable (he : m.attributes.get? "disabled" ≠ some (.ofBool true))

include he

theorem handleEvent_of_enabled (v : View) (event : UiEvent) :
    (v.handleEvent event m).2 = (v.kind.react m.attributes v.element event).2 := by
  rw [handleEvent, if_neg fun hd => he (Attributes.isDisabled_iff.mp hd)]

theorem click_button (hk : v.kind = .button) : (v.handleEvent .click m).2 = some .clicked := by
  rw [handleEvent_of_enabled he, hk, ViewKind.react]

theorem click_toggle (hk : v.kind = .checkbox ∨ v.kind = .toggleButton) :
    (v.handleEvent .click m).2 = some (.setValue (.ofBool (m.attributes.get? "value" ≠ some (.ofBool true)))) := by
  have hvalue : (!m.attributes.boolValue) = decide (m.attributes.get? "value" ≠ some (.ofBool true)) := by
    rw [Bool.eq_iff_iff, decide_eq_true_iff, Bool.not_eq_true', ← Bool.not_eq_true, Attributes.boolValue_iff]
  rw [handleEvent_of_enabled he, ← hvalue]
  rcases hk with hk | hk <;> rw [hk] <;> rfl

end Click

end View

namespace Manager

/-- What an operation comes to that asks the model of a view once: the model takes note of the view, and
application data is sent, or a change is made and sent as a patch or kept for later. -/
inductive Answered (m : Manager) (id : ViewId) (v : View) (model : Model) : Interaction → Outcome → Prop
  | custom {content : Value} {outcome : Outcome} (reply : outcome.reply = .ok .done)
      (frames : outcome.frames = [.message v.model (.custom content) ⟨some v.group⟩])
      (models : outcome.manager.models = m.models.insert v.model { model with lastModified := some id }) :
      m.Answered id v model (.custom content) outcome
  | sent {changes : Attributes} {outcome : Outcome} (reply : outcome.reply = .ok .done)
      (free : model.pending < model.throttle)
      (frames : outcome.frames = [.message v.model (.patch changes) ⟨some v.group⟩])
      (models : outcome.manager.models = m.models.insert v.model { model with
        lastModified := some id
        attributes := model.attributes.merge changes
        pending := model.pending + 1 }) : m.Answered id v model (.sync changes) outcome
  | buffered {changes : Attributes} {outcome : Outcome} (reply : outcome.reply = .ok .done)
      (throttled : model.throttle ≤ model.pending) (frames : outcome.frames = [])
      (models : outcome.manager.models = m.models.insert v.model { model with
        lastModified := some id
        attributes := model.attributes.merge changes
        buffer := some ((model.buffer.getD ∅).merge changes) }) : m.Answered id v model (.sync changes) outcome

variable {m : Manager} {id : ViewId} {slot : Slot} {model : Model} {event : UiEvent}

theorem modifyView_same (hs : m.views.get? id = some slot) : (m.modifyView id fun _ => slot.view) = m := by
  have hviews : (m.modifyView id fun _ => slot.view).views = m.views := by
    refine OrdMap.ext fun x => ?_
    rw [modifyView, OrdMap.get?_modify]
    split
    · next hx =>
      subst hx
      rw [hs]
      rfl
    · rfl
  calc (m.modifyView id fun _ => slot.view) = { m with views := (m.modifyView id fun _ => slot.view).views } := rfl
    _ = m := by rw [hviews]

/-- A view that neither changes nor asks for anything leaves everything as it is. -/
theorem step_ui_of_none (hs : m.views.get? id = some slot) (hm : m.models.get? slot.view.model = some model)
    (hnone : slot.view.handleEvent event model = (slot.view, none)) : m.step (.ui id event) = ⟨m, [], .ok .done⟩ := by
  have hui : m.handleUi id event = .ok (m, []) := by
    simp only [handleUi, modelOf_eq hs hm, hnone]
    exact congrArg (fun m : Manager => Except.ok (m, [])) (modifyView_same hs)
  rw [step, hui]
  rfl

/-- What a view asks for, it asks of its model, which is not being updated and has an open comm. -/
theorem Consistent.ui_answered (h : m.Consistent) (hs : m.views.get? id = some slot)
    (hm : m.models.get? slot.view.model = some model) (hu : model.updating = false) {asked : Interaction}
    (ha : (slot.view.handleEvent event model).2 = some asked) :
    m.Answered id slot.view model asked (m.step (.ui id event)) := by
  have hf := modelOf_eq hs hm
  have hcomm := h.opened _ model hm
  have hd : model.comm.delivers = true := by rw [hcomm]; rfl
  have hid : model.id = slot.view.model := by rw [Model.id, hcomm]; rfl
  have hreply : (m.step (.ui id event)).reply = .ok .done := by
    obtain ⟨m', frames, hui, -⟩ := handleUi_moves hf event
    rw [Manager.step, hui]
    rfl
  -- The model takes note of the view before it sends anything, so what it sends goes out for the view's own group.
  have hgroup := h.groupOf?_eq hs hm
  cases asked with
  | custom content =>
    have hr : m.request (.ui id event) = some (slot.view.model, .custom id content) := by
      simp only [request, hf, ha]
    obtain ⟨-, hmodels, hframes⟩ := asks_ui hf hr
    have hsend := Model.sendCustom_of_delivers (m := model.setLastModified id) hd content
    rw [Model.ask_custom, hsend] at hmodels hframes
    refine .custom hreply ?_ hmodels
    rw [hframes, ← hgroup, ← hid]
    rfl
  | sync changes =>
    have hr : m.request (.ui id event) = some (slot.view.model, .change id changes) := by
      simp only [request, hf, ha]
    obtain ⟨-, hmodels, hframes⟩ := asks_ui hf hr
    rw [Model.ask_change] at hmodels hframes
    let taken := (model.setLastModified id).set changes
    rcases Nat.lt_or_ge model.pending model.throttle with ht | ht
    · have hsync := Model.requestSync_of_free (m := taken) hu ht hd changes true
      rw [hsync] at hmodels hframes
      refine .sent hreply ht ?_ hmodels
      rw [hframes, ← hgroup, ← hid]
      rfl
    · have hsync := Model.requestSync_of_throttled (m := taken) hu ht changes true
      rw [hsync] at hmodels hframes
      exact .buffered hreply ht hframes hmodels

/-- In every run from a new manager: an event that a live view rejects is taken without a frame, and without any trace
in models, views or page. A click on a button, a checkbox or a toggle button of an enabled model asks the model once,
for a message that tells of the click or for the negation of the value. -/
theorem events_rejected_or_answered (notebook : Notebook) (throttle : Nat) (ops : List Operation) (id : ViewId)
    (slot : Slot) (event : UiEvent) :
    let m := ((new notebook throttle).run ops).1
    m.views.get? id = some slot → ∃ model, m.models.get? slot.view.model = some model ∧
      (slot.view.Rejects event model → m.step (.ui id event) = ⟨m, [], .ok .done⟩) ∧
      (model.attributes.get? "disabled" ≠ some (.ofBool true) → event = .click →
        (slot.view.kind = .button → m.Answered id slot.view model
          (.custom (.ofObject (.ofList [("event", .ofString "click")]))) (m.step (.ui id event))) ∧
        (slot.view.kind = .checkbox ∨ slot.view.kind = .toggleButton → m.Answered id slot.view model
          (.sync (.ofList [("value", .ofBool (model.attributes.get? "value" ≠ some (.ofBool true)))]))
          (m.step (.ui id event)))) := by
  intro m hs
  let start := new notebook throttle
  have hstart : start.Consistent := new_consistent notebook throttle
  have h : m.Consistent := hstart.run ops
  obtain ⟨model, hm, -⟩ := h.registered id slot hs
  have hnone : start.FreshOn slot.view.model [] := fun _ hm => nomatch hm
  have hu : model.updating = false := (hstart.freshOn_run hnone ops model hm).not_updating
  refine ⟨model, hm, fun hr => step_ui_of_none hs hm (View.handleEvent_of_rejects hr), ?_⟩
  rintro he rfl
  exact ⟨fun hk => h.ui_answered hs hm hu (View.click_button he hk),
    fun hk => h.ui_answered hs hm hu (View.click_toggle he hk)⟩

/-- A checkbox does not slide, is clicked while a message is in flight, and takes no click when it is disabled. -/
theorem checkbox_rejects_and_answers :
    let ops := Operation.registerDefaults :: uncheckedBox.map SessionEvent.operation
    let disable : SessionEvent := .commMessage
      ⟨⟨"c"⟩, .ofJson (.obj [("method", .str "update"), ("state", .obj [("disabled", .bool true)])]), none⟩
    let m := ((new (.withCells 1) 1).run ops).1
    let disabled := ((new (.withCells 1) 1).run (ops ++ [disable.operation])).1
    m.step (.ui ⟨1⟩ (.slide 1)) = ⟨m, [], .ok .done⟩ ∧
      (∃ slot model, m.views.get? ⟨1⟩ = some slot ∧ m.models.get? slot.view.model = some model ∧
        m.Answered ⟨1⟩ slot.view model (.sync (.ofList [("value", .ofBool true)])) (m.step (.ui ⟨1⟩ .click))) ∧
      disabled.step (.ui ⟨1⟩ .click) = ⟨disabled, [], .ok .done⟩ := by
  intro ops disable m disabled
  have hbox : (m.views.get? ⟨1⟩).map (fun slot => (slot.view.kind, slot.view.model)) = some (.checkbox, ⟨"c"⟩) := by
    decide +kernel
  have hvalue : (m.models.get? ⟨"c"⟩).map (fun model => (model.attributes.get? "disabled",
      model.attributes.get? "value")) = some (some (.ofBool false), some (.ofBool false)) := by decide +kernel
  have hbox' : (disabled.views.get? ⟨1⟩).map (·.view.model) = some ⟨"c"⟩ := by decide +kernel
  have hdisabled : (disabled.models.get? ⟨"c"⟩).map (·.attributes.get? "disabled") = some (some (.ofBool true)) := by
    decide +kernel
  obtain ⟨slot, hs, hslot⟩ := Option.map_eq_some_iff.mp hbox
  obtain ⟨hkind, hmodel⟩ := Prod.mk.inj hslot
  obtain ⟨slot', hs', hmodel'⟩ := Option.map_eq_some_iff.mp hbox'
  obtain ⟨model, hm, -, hclick⟩ := events_rejected_or_answered (.withCells 1) 1 ops ⟨1⟩ slot .click hs
  obtain ⟨model', hm', hrejects, -⟩ := events_rejected_or_answered (.withCells 1) 1 ops ⟨1⟩ slot (.slide 1) hs
  obtain ⟨model'', hm'', hrejects', -⟩ :=
    events_rejected_or_answered (.withCells 1) 1 (ops ++ [disable.operation]) ⟨1⟩ slot' .click hs'
  refine ⟨hrejects (.inr (.inl ?_)), ⟨slot, model, hs, hm, ?_⟩, hrejects' (.inl ?_)⟩
  · rw [hkind]
    exact nofun
  · rw [hmodel] at hm
    rw [hm, Option.map_some, Option.some_inj, Prod.mk.injEq] at hvalue
    have henabled : model.attributes.get? "disabled" ≠ some (.ofBool true) := by
      rw [hvalue.1]
      decide
    have hanswered := (hclick henabled rfl).2 (.inl hkind)
    rw [hvalue.2] at hanswered
    exact hanswered
  · rw [hmodel'] at hm''
    rwa [hm'', Option.map_some, Option.some_inj] at hdisabled

end Manager

end WidgetSync
