import WidgetSync.Proofs.Manager.Fate

/-! What an operation on one comm does, all in one: the comm's model is replaced, each of the comm's views is drawn,
and nothing else changes. The views are refreshed one after the other, and each of them once. -/
namespace WidgetSync

/-- What becomes of a comm: its model, and how each of its views is drawn. -/
structure Effect where
  model : Model
  draw : ViewId → View → View

/-- How the views of a model are drawn after a request. The view that made a change has drawn it already. -/
def Request.draw (after : Model) (id : ViewId) (v : View) : Request → View
  | .change caller _ => if id = caller then v else v.refresh after
  | .remote _ => v.refresh after
  | .custom _ _ => v
  | .status _ => v

theorem Request.draw_keeps (r : Request) (after : Model) (id : ViewId) (v : View) :
    (r.draw after id v).model = v.model := by
  cases r with
  | change caller changes =>
    rw [draw]
    split
    · rfl
    · exact (v.refresh_keeps after).1
  | remote state => exact (v.refresh_keeps after).1
  | custom view content => rfl
  | status report => rfl

namespace Operation

/-- How an operation draws a view before the view's model is asked anything. -/
def touch (model : Model) (id : ViewId) (v : View) : Operation → View
  | .ui view event => if id = view then (v.handleEvent event model).1 else v
  | _ => v

theorem touch_keeps (op : Operation) (model : Model) (id : ViewId) (v : View) :
    (op.touch model id v).model = v.model := by
  cases op with
  | ui view event =>
    rw [touch]
    split
    · exact (v.handleEvent_keeps event model).1
    · rfl
  | _ => rfl

/-- The effect on a comm of an operation that asks its model something, or nothing. -/
def effect (op : Operation) (model : Model) : Option Request → Effect
  | none => ⟨model, fun id v => op.touch model id v⟩
  | some r => ⟨(model.ask r).1, fun id v => r.draw (model.ask r).1 id (op.touch model id v)⟩

theorem effect_keeps (op : Operation) (model : Model) (asked : Option Request) (id : ViewId) (v : View) :
    ((op.effect model asked).draw id v).model = v.model := by
  cases asked with
  | none => exact op.touch_keeps model id v
  | some r => exact (r.draw_keeps _ id _).trans (op.touch_keeps model id v)

end Operation

/-- A view of the comm is drawn, and every other view stays as it is. -/
def Slot.redraw (comm : CommId) (draw : ViewId → View → View) (id : ViewId) (slot : Slot) : Slot :=
  if slot.view.model = comm then { slot with view := draw id slot.view } else slot

theorem Slot.redraw_self (comm : CommId) (id : ViewId) (slot : Slot) :
    slot.redraw comm (fun _ v => v) id = slot := by
  rw [redraw]
  split <;> rfl

namespace Manager

/-- The manager after an effect on a comm. -/
def undergo (m : Manager) (comm : CommId) (e : Effect) : Manager :=
  { m with
    models := m.models.insert comm e.model
    views := m.views.mapValues (Slot.redraw comm e.draw) }

variable {m : Manager} {comm : CommId} {model : Model}

theorem get?_undergo_views (m : Manager) (comm : CommId) (e : Effect) (id : ViewId) :
    (m.undergo comm e).views.get? id = (m.views.get? id).map (Slot.redraw comm e.draw id) :=
  OrdMap.get?_mapValues _ _ _

theorem undergo_congr {e f : Effect} (hm : e.model = f.model)
    (hd : ∀ id slot, m.views.get? id = some slot → slot.view.model = comm →
      e.draw id slot.view = f.draw id slot.view) : m.undergo comm e = m.undergo comm f := by
  have hviews : (m.undergo comm e).views = (m.undergo comm f).views := by
    refine OrdMap.ext fun id => ?_
    rw [get?_undergo_views, get?_undergo_views]
    cases hs : m.views.get? id with
    | none => rfl
    | some slot =>
      rw [Option.map_some, Option.map_some, Slot.redraw, Slot.redraw]
      split
      · next hc => rw [hd id slot hs hc]
      · rfl
  simp only [undergo] at hviews ⊢
  rw [hviews, hm]

/-- One effect after another on the same comm. -/
theorem undergo_undergo (m : Manager) (comm : CommId) {e : Effect}
    (he : ∀ id v, (e.draw id v).model = v.model) (f : Effect) :
    (m.undergo comm e).undergo comm f =
      m.undergo comm ⟨f.model, fun id v => f.draw id (e.draw id v)⟩ := by
  have hmodels : (m.models.insert comm e.model).insert comm f.model = m.models.insert comm f.model :=
    OrdMap.insert_insert _ _ _ _
  have hviews : ((m.undergo comm e).undergo comm f).views =
      (m.undergo comm ⟨f.model, fun id v => f.draw id (e.draw id v)⟩).views := by
    refine OrdMap.ext fun id => ?_
    simp only [get?_undergo_views, Option.map_map]
    congr 1
    funext slot
    by_cases hc : slot.view.model = comm
    · simp [Slot.redraw, hc, he]
    · simp [Slot.redraw, hc]
  simp only [undergo] at hviews ⊢
  rw [hviews, hmodels]

/-- To replace a model draws nothing. -/
theorem setModel_eq (m : Manager) (comm : CommId) (model' : Model) :
    m.setModel comm model' = m.undergo comm ⟨model', fun _ v => v⟩ := by
  have hviews : m.views = (m.undergo comm ⟨model', fun _ v => v⟩).views := by
    refine OrdMap.ext fun id => ?_
    rw [get?_undergo_views]
    cases m.views.get? id with
    | none => rfl
    | some slot => rw [Option.map_some, Slot.redraw_self]
  simp only [undergo] at hviews
  rw [setModel, undergo, ← hviews]

theorem undergo_same (hm : m.models.get? comm = some model) :
    m.undergo comm ⟨model, fun _ v => v⟩ = m := by
  have hmodels : m.models.insert comm model = m.models := by
    refine OrdMap.ext fun c => ?_
    rw [OrdMap.get?_insert_eq]
    split
    · next hc => rw [← hc, hm]
    · rfl
  rw [← setModel_eq, setModel, hmodels]

/-- To draw one view of a comm is an effect that leaves the model as it is. -/
theorem draw_eq {id : ViewId} {slot : Slot} (hs : m.views.get? id = some slot)
    (hm : m.models.get? slot.view.model = some model) (drawn : View) :
    (m.modifyView id fun _ => drawn) =
      m.undergo slot.view.model ⟨model, fun x v => if x = id then drawn else v⟩ := by
  have hmodels : m.models.insert slot.view.model model = m.models := congrArg Manager.models (undergo_same hm)
  have hviews : (m.modifyView id fun _ => drawn).views =
      (m.undergo slot.view.model ⟨model, fun x v => if x = id then drawn else v⟩).views := by
    refine OrdMap.ext fun x => ?_
    rw [modifyView, OrdMap.get?_modify, get?_undergo_views]
    by_cases hx : id = x
    · subst hx
      simp [hs, Slot.redraw]
    · rw [if_neg hx]
      cases m.views.get? x with
      | none => rfl
      | some other => simp [Slot.redraw, Ne.symm hx]
  simp only [undergo] at hviews ⊢
  rw [← hviews, hmodels]
  rfl

/-! ### Refreshing -/

/-- A view drawn anew from its model. -/
def redrawn (m : Manager) (slot : Slot) : Slot :=
  match m.models.get? slot.view.model with
  | some model => { slot with view := slot.view.refresh model }
  | none => slot

/-- To refresh views one after the other refreshes each of them once. -/
theorem refresh_eq (m : Manager) {ids : List ViewId} (hn : ids.Nodup) :
    ids.foldl refreshView m =
      { m with views := m.views.mapValues fun id slot => if id ∈ ids then m.redrawn slot else slot } := by
  induction ids generalizing m with
  | nil =>
    have hviews : (m.views.mapValues fun id slot => if id ∈ ([] : List ViewId) then m.redrawn slot else slot) =
        m.views := by
      refine OrdMap.ext fun id => ?_
      simp
    rw [hviews]
    rfl
  | cons id rest ih =>
    obtain ⟨hid, hrest⟩ := List.nodup_cons.mp hn
    have hviews : ((m.refreshView id).views.mapValues fun x slot =>
          if x ∈ rest then (m.refreshView id).redrawn slot else slot) =
        m.views.mapValues fun x slot => if x ∈ id :: rest then m.redrawn slot else slot := by
      refine OrdMap.ext fun x => ?_
      rw [OrdMap.get?_mapValues, OrdMap.get?_mapValues, refreshView, OrdMap.get?_modify]
      by_cases hx : id = x
      · -- It is refreshed first, and it is none of the others.
        subst hx
        simp only [hid, if_false, if_true, List.mem_cons, true_or, Option.map_map]
        rfl
      · simp only [if_neg hx, List.mem_cons, Ne.symm hx, false_or]
        rfl
    rw [List.foldl_cons, ih (m.refreshView id) hrest, hviews]
    rfl

/-- The subscribers of a model are its views: when it is replaced, all of them are drawn, but for one perhaps. -/
theorem Consistent.refreshViews_eq (h : m.Consistent) (hm : m.models.get? comm = some model) {model' : Model}
    (hs : model'.subscribers = model.subscribers) (except : Option ViewId) :
    (m.setModel comm model').refreshViews comm except =
      m.undergo comm ⟨model', fun id v => if some id = except then v else v.refresh model'⟩ := by
  have hself : (m.setModel comm model').models.get? comm = some model' := by
    rw [setModel, OrdMap.get?_insert_eq, if_pos rfl]
  have hsub : (m.setModel comm model').subscribers comm = model.subscribers := by
    rw [subscribers, hself, Option.elim_some, hs]
  have ht := h.tidy comm model hm
  let ids := model.subscribers.filter (some · ≠ except)
  have hids (id : ViewId) (slot : Slot) (hslot : m.views.get? id = some slot) :
      id ∈ ids ↔ slot.view.model = comm ∧ some id ≠ except := by
    have hown : m.views.owner id = some slot.view.model := by rw [Arena.owner, hslot, Option.map_some]
    rw [List.mem_filter, ht.mem_subscribers, ← h.owns hm, hown, Option.some_inj, decide_eq_true_eq]
  have hviews : ((m.setModel comm model').views.mapValues fun id slot =>
        if id ∈ ids then (m.setModel comm model').redrawn slot else slot) =
      (m.undergo comm ⟨model', fun id v => if some id = except then v else v.refresh model'⟩).views := by
    refine OrdMap.ext fun id => ?_
    rw [OrdMap.get?_mapValues, get?_undergo_views, setModel]
    cases hslot : m.views.get? id with
    | none => rfl
    | some slot =>
      rw [Option.map_some, Option.map_some, Slot.redraw]
      by_cases hc : slot.view.model = comm
      · by_cases he : some id = except
        · simp [hids id slot hslot, hc, he]
        · simp [hids id slot hslot, hc, he, redrawn]
      · simp [hids id slot hslot, hc]
  rw [refreshViews, hsub, refresh_eq _ (ht.subscribers_nodup.filter _), hviews]
  rfl

/-! ### Operations -/

/-- The comm whose model and views an operation is about. -/
def about (m : Manager) : Operation → Option CommId
  | .message message =>
    match ModelMessage.ofJson? message.data with
    | some (.display _ _ _) => none
    | _ => some message.comm
  | .update comm _ => some comm
  | .status comm _ => some comm
  | .change view _ => m.views.owner view
  | .ui view _ => m.views.owner view
  | .sendCustom view _ => m.views.owner view
  | _ => none

/-- An operation on a comm has its effect, and sends what the model sends. -/
structure Affects (m : Manager) (op : Operation) (comm : CommId) (model : Model) (asked : Option Request) :
    Prop where
  manager : (m.step op).manager = m.undergo comm (op.effect model asked)
  frames : (m.step op).frames = asked.elim [] fun r => (model.ask r).2

theorem subscribers_ask (model : Model) (r : Request) : (model.ask r).1.subscribers = model.subscribers :=
  congrArg (·.2.2) (model.ask_outline r)

theorem Consistent.update_affects (h : m.Consistent) (hm : m.models.get? comm = some model)
    (state : Attributes) : m.Affects (.update comm state) comm model (some (.remote state)) := by
  refine ⟨?_, ?_⟩
  · have hask : (model.ask (.remote state)).1 = (model.applyRemote state).1 := by rw [Model.ask_remote]
    have hs := subscribers_ask model (.remote state)
    rw [hask] at hs
    simp only [Manager.step, Outcome.silent, update, hm]
    rw [h.refreshViews_eq hm hs]
    refine undergo_congr hask.symm fun id slot _ _ => ?_
    simp only [reduceCtorEq, if_false, Operation.effect, hask]
    rfl
  · rw [Option.elim_some, Model.ask_remote]
    rfl

theorem status_affects (hm : m.models.get? comm = some model) (report : StatusMessage) :
    m.Affects (.status comm report) comm model (some (.status report)) := by
  refine ⟨?_, ?_⟩
  · rw [step_status hm]
    show m.setModel comm (model.handleStatus report).1 = _
    rw [setModel_eq]
    exact undergo_congr (by rw [Operation.effect, Model.ask_status]) fun _ _ _ _ => rfl
  · rw [step_status hm, Option.elim_some, Model.ask_status]

theorem Consistent.change_eq (h : m.Consistent) {caller : ViewId} {view : View}
    (hf : m.modelOf caller = .ok (view, model)) (changes : Attributes) :
    let after := (model.ask (.change caller changes)).1
    ∃ state, m.change caller changes = .ok (m.undergo view.model ⟨after, fun id v =>
      if id = caller then v else v.refresh after⟩, (model.ask (.change caller changes)).2, state) := by
  obtain ⟨_, _, _, hm⟩ := modelOf_ok hf
  have hs := subscribers_ask model (.change caller changes)
  rw [Model.ask_change] at hs ⊢
  refine ⟨((model.setLastModified caller).set changes).attributes, ?_⟩
  simp only [change, hf]
  rw [h.refreshViews_eq hm hs]
  simp only [Option.some_inj]

theorem sendCustom_eq {id : ViewId} {view : View} (hf : m.modelOf id = .ok (view, model)) (content : Value) :
    m.sendCustom id content = .ok (m.undergo view.model ⟨(model.ask (.custom id content)).1, fun _ v => v⟩,
      (model.ask (.custom id content)).2) := by
  rw [Model.ask_custom, ← setModel_eq, sendCustom, hf]

theorem Consistent.change_affects (h : m.Consistent) {caller : ViewId} {view : View}
    (hf : m.modelOf caller = .ok (view, model)) (changes : Attributes) :
    m.Affects (.change caller changes) view.model model (some (.change caller changes)) := by
  obtain ⟨state, he⟩ := h.change_eq hf changes
  refine ⟨?_, ?_⟩ <;> rw [Manager.step, he]
  · exact undergo_congr rfl fun _ _ _ _ => rfl
  · rfl

theorem sendCustom_affects {id : ViewId} {view : View} (hf : m.modelOf id = .ok (view, model))
    (content : Value) : m.Affects (.sendCustom id content) view.model model (some (.custom id content)) := by
  refine ⟨?_, ?_⟩ <;> rw [Manager.step, sendCustom_eq hf]
  · exact undergo_congr rfl fun _ _ _ _ => rfl
  · rfl

/-- The view that an event is for is drawn at first, and then its model is asked what the view asks for. -/
theorem Consistent.ui_affects (h : m.Consistent) {id : ViewId} {view : View}
    (hf : m.modelOf id = .ok (view, model)) (event : UiEvent) :
    m.Affects (.ui id event) view.model model (m.requestOn view.model (.ui id event)) := by
  obtain ⟨slot, hs, rfl, hm⟩ := modelOf_ok hf
  have hkeeps := slot.view.handleEvent_keeps event model
  cases he : slot.view.handleEvent event model with
  | mk drawn interaction =>
    rw [he] at hkeeps
    let shown : Manager := m.modifyView id fun _ => drawn
    have hdraw : Alike m shown := by
      refine alike_draw fun slot' hs' => ?_
      obtain rfl : slot = slot' := Option.some.inj (hs.symm.trans hs')
      exact hkeeps
    have hshown : shown.modelOf id = .ok (drawn, model) := modelOf_draw hf hkeeps.1
    -- Of the views of the comm, only the one that the event is for is touched.
    have htouch : shown = m.undergo slot.view.model ((Operation.ui id event).effect model none) := by
      refine (draw_eq hs hm drawn).trans (undergo_congr rfl fun x slot' hs' _ => ?_)
      simp only [Operation.effect, Operation.touch]
      split
      · next hx =>
        subst hx
        obtain rfl : slot = slot' := Option.some.inj (hs.symm.trans hs')
        rw [he]
      · rfl
    have hrun (f : Effect) : shown.undergo drawn.model f = m.undergo slot.view.model
        ⟨f.model, fun x v => f.draw x ((Operation.ui id event).touch model x v)⟩ := by
      rw [hkeeps.1, htouch, undergo_undergo m _ (Operation.effect_keeps _ model none) f]
      rfl
    cases interaction with
    | none =>
      have hr : m.request (.ui id event) = none := by simp only [request, hf, he]
      rw [requestOn_of_none hr]
      refine ⟨?_, ?_⟩ <;> simp only [Manager.step, handleUi, hf, he]
      · exact htouch
      · rfl
    | some interaction =>
      cases interaction with
      | sync changes =>
        obtain ⟨state, hc⟩ := (h.of_alike hdraw).change_eq hshown changes
        have hui : m.handleUi id event = (shown.change id changes).map fun changed => (changed.1, changed.2.1) := by
          simp only [handleUi, hf, he]
          rfl
        have hr : m.request (.ui id event) = some (slot.view.model, .change id changes) := by
          simp only [request, hf, he]
        rw [requestOn_self hr]
        refine ⟨?_, ?_⟩ <;> rw [Manager.step, hui, hc]
        · exact hrun _
        · rfl
      | custom content =>
        have hui : m.handleUi id event = shown.sendCustom id content := by
          simp only [handleUi, hf, he]
          rfl
        have hr : m.request (.ui id event) = some (slot.view.model, .custom id content) := by
          simp only [request, hf, he]
        rw [requestOn_self hr]
        refine ⟨?_, ?_⟩ <;> rw [Manager.step, hui, sendCustom_eq hshown]
        · exact hrun _
        · rfl

/-- What an operation on a live comm does. -/
theorem Consistent.affects (h : m.Consistent) {op : Operation} (hb : m.about op = some comm)
    (hm : m.models.get? comm = some model) : m.Affects op comm model (m.requestOn comm op) := by
  have howner {id : ViewId} (ho : m.views.owner id = some comm) :
      ∃ view, m.modelOf id = .ok (view, model) ∧ view.model = comm := by
    obtain ⟨slot, hs, rfl⟩ := Option.map_eq_some_iff.mp ho
    exact ⟨slot.view, modelOf_eq hs hm, rfl⟩
  cases op with
  | message message =>
    have hc : m.models.contains comm = true := OrdMap.contains_iff.mpr ⟨model, hm⟩
    simp only [about] at hb
    split at hb
    · contradiction
    · next hnot =>
      obtain rfl := Option.some.inj hb
      cases hj : ModelMessage.ofJson? message.data with
      | none =>
        -- The message is of no known form.
        have hnone : m.request (.message message) = none := by simp [request, hj]
        rw [requestOn_of_none hnone]
        refine ⟨?_, rfl⟩
        simp only [Manager.step, Manager.message, hc, hj]
        exact (undergo_same hm).symm
      | some data =>
        cases data with
        | display name parent cell => exact absurd hj (hnot name parent cell)
        | update state =>
          have hstep : m.step (.message message) = m.step (.update message.comm state) := by
            simp [Manager.step, Manager.message, hc, hj]
          obtain ⟨hmanager, hframes⟩ := h.update_affects hm state
          rw [requestOn_self (request_message hm hj)]
          exact ⟨hstep ▸ hmanager, hstep ▸ hframes⟩
  | update c state =>
    obtain rfl := Option.some.inj hb
    rw [requestOn_self (request_update hm state)]
    exact h.update_affects hm state
  | status c report =>
    obtain rfl := Option.some.inj hb
    rw [requestOn_status hm]
    exact status_affects hm report
  | change id changes =>
    obtain ⟨view, hf, rfl⟩ := howner hb
    have hr : m.request (.change id changes) = some (view.model, .change id changes) := by
      simp only [request, hf]
    rw [requestOn_self hr]
    exact h.change_affects hf changes
  | ui id event =>
    obtain ⟨view, hf, rfl⟩ := howner hb
    exact h.ui_affects hf event
  | sendCustom id content =>
    obtain ⟨view, hf, rfl⟩ := howner hb
    have hr : m.request (.sendCustom id content) = some (view.model, .custom id content) := by
      simp only [request, hf]
    rw [requestOn_self hr]
    exact sendCustom_affects hf content
  | _ => contradiction

/-- A view that belongs to no comm is not there. -/
theorem modelOf_of_dead {id : ViewId} (hd : m.views.owner id = none) :
    m.modelOf id = .error (.unknownView id) := by
  rw [modelOf, Option.map_eq_none_iff.mp hd]

/-- On a comm that is not live nothing happens. -/
theorem Consistent.still (h : m.Consistent) {op : Operation} (hb : m.about op = some comm)
    (hd : m.models.get? comm = none) : (m.step op).manager = m ∧ (m.step op).frames = [] := by
  have howned {id : ViewId} (ho : m.views.owner id = some comm) : False := by
    obtain ⟨slot, hs, rfl⟩ := Option.map_eq_some_iff.mp ho
    obtain ⟨model, hm, _⟩ := h.registered id slot hs
    rw [hd] at hm
    contradiction
  cases op with
  | message message =>
    simp only [about] at hb
    split at hb
    · contradiction
    · obtain rfl := Option.some.inj hb
      have hc := OrdMap.contains_eq_false_iff.mpr hd
      refine ⟨?_, rfl⟩
      simp [Manager.step, Manager.message, hc, Outcome.silent]
  | update c state =>
    obtain rfl := Option.some.inj hb
    refine ⟨?_, rfl⟩
    simp only [Manager.step, update, hd, Outcome.silent]
  | status c report =>
    obtain rfl := Option.some.inj hb
    refine ⟨?_, ?_⟩ <;> simp only [Manager.step, status, hd]
  | change id changes => exact (howned hb).elim
  | ui id event => exact (howned hb).elim
  | sendCustom id content => exact (howned hb).elim
  | _ => contradiction

end Manager

end WidgetSync
