import WidgetSync.Proofs.Manager.Move

/-! Every operation of a manager as moves. -/
namespace WidgetSync

namespace View

theorem refresh_keeps (v : View) (m : Model) :
    (v.refresh m).model = v.model ∧ (v.refresh m).group = v.group ∧
      (v.refresh m).children = v.children := by
  simp only [refresh, follow, followStyles, followVisibility]
  split
  · exact ⟨rfl, rfl, rfl⟩
  · split <;> exact ⟨rfl, rfl, rfl⟩

theorem handleEvent_keeps (v : View) (event : UiEvent) (m : Model) :
    (v.handleEvent event m).1.model = v.model ∧ (v.handleEvent event m).1.group = v.group ∧
      (v.handleEvent event m).1.children = v.children := by
  rw [handleEvent]
  split <;> exact ⟨rfl, rfl, rfl⟩

end View

namespace Manager

/-- The local changes that an operation tells a model: those of views, and those that views make of events. -/
def localChanges (m : Manager) : Operation → List (CommId × Attributes)
  | .change view changes =>
    match m.modelOf view with
    | .ok (v, _) => [(v.model, changes)]
    | .error _ => []
  | .ui view event =>
    match m.modelOf view with
    | .ok (v, model) =>
      match (v.handleEvent event model).2 with
      | some (.sync changes) => [(v.model, changes)]
      | some (.custom _) => []
      | none => []
    | .error _ => []
  | _ => []

variable {m : Manager}

/-! ### Drawing -/

theorem refreshView_move (m : Manager) (id : ViewId) : Move m (m.refreshView id) [] [] := by
  let f : View → View := fun view => (m.models.get? view.model).elim view view.refresh
  have he : m.refreshView id = m.modifyView id f := by
    simp only [refreshView, modifyView]
    congr 2
    funext slot
    cases hm : m.models.get? slot.view.model <;> simp [f, hm]
  rw [he]
  refine .draw f fun slot _ => ?_
  simp only [f]
  cases m.models.get? slot.view.model with
  | none => exact ⟨rfl, rfl, rfl⟩
  | some model => exact slot.view.refresh_keeps model

theorem refresh_moves (m : Manager) (ids : List ViewId) : Moves m (ids.foldl refreshView m) [] [] := by
  induction ids generalizing m with
  | nil => exact .refl m
  | cons id rest ih => exact .head (refreshView_move m id) (ih (m.refreshView id))

theorem Moves.redraw {m₁ : Manager} {made : List (CommId × Attributes)} {frames : List Frame}
    (h : Moves m m₁ made frames) (ids : List ViewId) : Moves m (ids.foldl refreshView m₁) made frames := by
  have hall := h.trans (refresh_moves m₁ ids)
  rwa [List.append_nil, List.append_nil] at hall

theorem update_moves (m : Manager) (comm : CommId) (state : Attributes) :
    Moves m (m.update comm state).1 [] [] := by
  rw [update]
  cases hm : m.models.get? comm with
  | none => exact .refl m
  | some model =>
    have hask : Move m (m.setModel comm (model.applyRemote state).1) [] [] :=
      .ask hm [.applyRemote state] (by simp [ModelOperation.isStateful])
    exact (Moves.single hask).redraw _

theorem status_moves (m : Manager) (comm : CommId) (report : StatusMessage) :
    Moves m (m.status comm report).1 [] (m.status comm report).2 := by
  rw [status]
  cases hm : m.models.get? comm with
  | none => exact .refl m
  | some model =>
    have hask := Move.ask hm [.status report] (by simp [ModelOperation.isStateful])
    simp only [Model.run, Model.step, List.append_nil] at hask
    exact .single hask

/-! ### Asking for the view's model -/

theorem modelOf_eq {id : ViewId} {slot : Slot} {model : Model} (hs : m.views.get? id = some slot)
    (hm : m.models.get? slot.view.model = some model) : m.modelOf id = .ok (slot.view, model) := by
  simp only [modelOf, hs, hm]

theorem modelOf_ok {id : ViewId} {view : View} {model : Model} (h : m.modelOf id = .ok (view, model)) :
    ∃ slot, m.views.get? id = some slot ∧ slot.view = view ∧
      m.models.get? view.model = some model := by
  rw [modelOf] at h
  split at h
  · exact absurd h (by simp)
  · next slot hs =>
    split at h
    · exact absurd h (by simp)
    · next found hm =>
      obtain ⟨rfl, rfl⟩ := Prod.mk.inj (Except.ok.inj h)
      exact ⟨slot, hs, rfl, hm⟩

theorem change_moves {caller : ViewId} {view : View} {model : Model}
    (h : m.modelOf caller = .ok (view, model)) (changes : Attributes) :
    ∃ m' frames state, m.change caller changes = .ok (m', frames, state) ∧
      Moves m m' [(view.model, changes)] frames := by
  obtain ⟨slot, _, _, hm⟩ := modelOf_ok h
  have hask := Move.ask hm [.setLastModified caller, .set changes, .requestSync changes true]
    (by simp [ModelOperation.isStateful])
  simp only [Model.run, Model.step, List.append_nil, List.nil_append] at hask
  let asked := (model.setLastModified caller).set changes
  let synced := asked.requestSync changes true
  refine ⟨(m.setModel view.model synced.1).refreshViews view.model (some caller), synced.2,
    asked.attributes, ?_, (Moves.single hask).redraw _⟩
  rw [change, h]

theorem sendCustom_moves {id : ViewId} {view : View} {model : Model}
    (h : m.modelOf id = .ok (view, model)) (content : Value) :
    ∃ m' frames, m.sendCustom id content = .ok (m', frames) ∧ Moves m m' [] frames := by
  obtain ⟨slot, _, _, hm⟩ := modelOf_ok h
  have hask := Move.ask hm [.setLastModified id, .sendCustom content]
    (by simp [ModelOperation.isStateful])
  simp only [Model.run, Model.step, List.append_nil, List.nil_append] at hask
  refine ⟨_, _, ?_, .single hask⟩
  rw [sendCustom, h]

/-- After a view has been drawn its model is the same. -/
theorem modelOf_draw {id : ViewId} {view : View} {model : Model}
    (h : m.modelOf id = .ok (view, model)) {drawn : View} (hd : drawn.model = view.model) :
    (m.modifyView id fun _ => drawn).modelOf id = .ok (drawn, model) := by
  obtain ⟨slot, hs, rfl, hm⟩ := modelOf_ok h
  have hview : (m.modifyView id fun _ => drawn).views.get? id = some { slot with view := drawn } := by
    rw [modifyView, OrdMap.get?_modify, if_pos rfl, hs, Option.map_some]
  have hmodel : (m.modifyView id fun _ => drawn).models.get? drawn.model = some model := by
    rw [hd]
    exact hm
  rw [modelOf, hview]
  simp only [hmodel]

theorem handleUi_moves {id : ViewId} {view : View} {model : Model}
    (h : m.modelOf id = .ok (view, model)) (event : UiEvent) :
    ∃ m' frames, m.handleUi id event = .ok (m', frames) ∧
      Moves m m' (m.localChanges (.ui id event)) frames := by
  obtain ⟨slot, hs, hslot, _⟩ := modelOf_ok h
  -- The view is drawn at once, and then its model is asked, which is still the same.
  have hkeeps := view.handleEvent_keeps event model
  cases he : view.handleEvent event model with
  | mk drawn interaction =>
    rw [he] at hkeeps
    let shown := m.modifyView id fun _ => drawn
    have hdraw : Move m shown [] [] := by
      refine .draw (fun _ => drawn) fun slot' hs' => ?_
      obtain rfl : slot = slot' := Option.some.inj (hs.symm.trans hs')
      rw [hslot]
      exact hkeeps
    have hask : shown.modelOf id = .ok (drawn, model) := modelOf_draw h hkeeps.1
    simp only [handleUi, localChanges, h, he]
    cases interaction with
    | none => exact ⟨shown, [], rfl, .single hdraw⟩
    | some interaction =>
      cases interaction with
      | sync changes =>
        obtain ⟨m', frames, state, hc, hmoves⟩ := change_moves hask changes
        rw [hkeeps.1] at hmoves
        refine ⟨m', frames, ?_, .head hdraw hmoves⟩
        show (shown.change id changes).map _ = _
        rw [hc]
        rfl
      | custom content =>
        obtain ⟨m', frames, hc, hmoves⟩ := sendCustom_moves hask content
        exact ⟨m', frames, hc, .head hdraw hmoves⟩

/-! ### Displaying -/

theorem live_of_mem_hosts {parent : Option CommId} {group : GroupKey} {host : ViewId}
    (h : host ∈ m.hosts parent group) : ∃ slot, m.views.get? host = some slot := by
  obtain ⟨_, hh⟩ := List.mem_filter.mp h
  rw [isHost] at hh
  cases hs : m.views.get? host with
  | none =>
    rw [hs] at hh
    exact absurd hh Bool.false_ne_true
  | some slot => exact ⟨slot, rfl⟩

theorem createInHosts_moves (h : m.Consistent) {comm : CommId} {model : Model}
    (hm : m.models.get? comm = some model) (kind : ViewKind) (group : GroupKey) {hosts : List ViewId}
    (hh : ∀ host ∈ hosts, ∃ slot, m.views.get? host = some slot) :
    Moves m (m.createInHosts kind comm group hosts).1 [] [] := by
  induction hosts generalizing m model with
  | nil => exact .refl m
  | cons host rest ih =>
    have hp : ∀ x, Placement.host host = .host x → ∃ slot, m.views.get? x = some slot := by
      intro x hx
      exact Placement.host.inj hx ▸ hh host List.mem_cons_self
    have hn := h.next_not_host hp
    have hmodel := m.get?_place_models kind comm group (.host host) comm
    rw [if_pos rfl, hm, Option.map_some] at hmodel
    -- The other hosts are live after the first has got its view.
    rw [createInHosts_cons]
    refine .head (.place hm hp kind group) (ih (h.place hp kind group hm) hmodel fun x hx => ?_)
    obtain ⟨slot, hs⟩ := hh x (List.mem_cons_of_mem _ hx)
    exact ⟨_, live_place kind comm group hn h.next_dead hs⟩

theorem display_moves (h : m.Consistent) {comm : CommId} {name : String} {parent : Option CommId}
    {group : GroupKey} {m' : Manager} {ids : List ViewId}
    (hd : m.display comm name parent group = .ok (m', ids)) : Moves m m' [] [] := by
  rw [display] at hd
  split at hd
  · exact absurd hd (by simp)
  · next kind _ =>
    split at hd
    · exact absurd hd (by simp)
    · next hc =>
      have hc : m.models.contains comm = true := by simpa using hc
      obtain ⟨model, hm⟩ := OrdMap.contains_iff.mp hc
      cases hhosts : m.hosts parent group with
      | nil =>
        -- Nobody hosts the view, and the area of the group shows it.
        rw [hhosts] at hd
        simp only [createInArea_eq] at hd
        obtain ⟨rfl, rfl⟩ := Prod.mk.inj (Except.ok.inj hd)
        exact (Moves.single (.place hm (fun _ he => absurd he (by simp)) kind group)).redraw _
      | cons host rest =>
        rw [hhosts] at hd
        obtain ⟨hm', _⟩ := Prod.mk.inj (Except.ok.inj hd)
        have hlive : ∀ x ∈ host :: rest, ∃ slot, m.views.get? x = some slot := by
          intro x hx
          exact live_of_mem_hosts (hhosts ▸ hx)
        rw [← hm']
        exact (createInHosts_moves h hm kind group hlive).redraw _

/-! ### Every operation -/

theorem Around.refl (m : Manager) : Around m m := ⟨rfl, rfl, rfl, rfl, rfl, rfl⟩

theorem Around.trans {m₁ m₂ : Manager} (h : Around m m₁) (k : Around m₁ m₂) : Around m m₂ where
  models := k.models.trans h.models
  views := k.views.trans h.views
  areas := k.areas.trans h.areas
  nextView := k.nextView.trans h.nextView
  throttle := k.throttle.trans h.throttle
  reader := k.reader.trans h.reader

/-- A check that must pass first adds nothing to what follows it. -/
theorem ok_of_map {check : Except ManagerError Unit} {m m' : Manager}
    (h : check.map (fun _ => m) = .ok m') : m = m' := by
  cases check with
  | error e =>
    rw [Except.map] at h
    contradiction
  | ok u => exact Except.ok.inj h

theorem registerModel_around {m' : Manager} {name : String} {kind : ModelKind}
    (h : m.registerModel name kind = .ok m') : Around m m' := by
  obtain rfl := ok_of_map h
  exact ⟨rfl, rfl, rfl, rfl, rfl, rfl⟩

theorem registerView_around {m' : Manager} {name : String} {kind : ViewKind}
    (h : m.registerView name kind = .ok m') : Around m m' := by
  obtain rfl := ok_of_map h
  exact ⟨rfl, rfl, rfl, rfl, rfl, rfl⟩

theorem attempt_around {steps : List (Manager → Except ManagerError Manager)}
    (hs : ∀ step ∈ steps, ∀ m m', step m = .ok m' → Around m m') (m : Manager) :
    Around m (m.attempt steps).1 := by
  induction steps generalizing m with
  | nil => exact .refl m
  | cons step rest ih =>
    rw [attempt]
    cases hstep : step m with
    | error e => exact .refl m
    | ok m₁ =>
      have hfirst := hs step List.mem_cons_self m m₁ hstep
      exact hfirst.trans (ih (fun s hm => hs s (List.mem_cons_of_mem _ hm)) m₁)

theorem registerDefaults_around (m : Manager) : Around m m.registerDefaults.1 := by
  refine attempt_around (fun step hs m m' h => ?_) m
  rcases List.mem_append.mp hs with hs | hs
  · obtain ⟨kind, _, rfl⟩ := List.mem_map.mp hs
    exact registerModel_around h
  · obtain ⟨kind, _, rfl⟩ := List.mem_map.mp hs
    exact registerView_around h

theorem output_around (m : Manager) (comm : CommId) (text : String) : Around m (m.output comm text) := by
  rw [output]
  split
  · next index _ =>
    exact ⟨rfl, rfl, m.notebook.areas_appendOutput index text, rfl, rfl, rfl⟩
  · exact .refl m
  · exact .refl m

/-- To execute a cell changes the notebook only. -/
theorem execute_ok {m' : Manager} {cell : Nat} {message : String}
    (h : m.execute cell message = .ok m') :
    ∃ notebook, m.notebook.execute cell message = .ok notebook ∧ m' = { m with notebook } := by
  rw [execute] at h
  split at h
  · next notebook he => exact ⟨notebook, he, (Except.ok.inj h).symm⟩
  · exact absurd h (by simp)

theorem execute_alike {m' : Manager} {cell : Nat} {message : String}
    (h : m.execute cell message = .ok m') : Alike m m' := by
  obtain ⟨notebook, _, rfl⟩ := execute_ok h
  exact ⟨fun _ => rfl, fun _ => rfl, rfl, rfl, rfl⟩

theorem message_moves (h : m.Consistent) (message : CommMessage) :
    Moves m (m.message message).1 [] [] := by
  rw [Manager.message]
  split
  · exact .refl m
  · split
    · exact .refl m
    · next name parent cell _ =>
      cases hd : m.display message.comm name parent (m.resolveGroup cell message.parentMessage) with
      | error e => exact .refl m
      | ok shown => exact display_moves h hd
    · next state _ => exact update_moves m message.comm state

/-- An operation opens a comm, or executes a cell, or it is made of moves and tells models its local changes. -/
theorem step_moves (h : m.Consistent) (op : Operation) :
    (∃ request opened, op = .openComm request ∧ m.openComm request = .ok opened ∧
      (m.step op).manager = opened ∧ (m.step op).frames = []) ∨
    (∃ cell message executed, op = .execute cell message ∧ m.execute cell message = .ok executed ∧
      (m.step op).manager = executed ∧ (m.step op).frames = []) ∨
    Moves m (m.step op).manager (m.localChanges op) (m.step op).frames := by
  cases op with
  | openComm request =>
    cases ho : m.openComm request with
    | error e =>
      refine .inr (.inr ?_)
      rw [step, ho]
      exact .refl m
    | ok opened =>
      refine .inl ⟨request, opened, rfl, ho, ?_⟩
      rw [step, ho]
      exact ⟨rfl, rfl⟩
  | registerModel name kind =>
    refine .inr (.inr ?_)
    rw [step]
    cases hr : m.registerModel name kind with
    | error e => exact .refl m
    | ok m' => exact .single (.around (registerModel_around hr))
  | registerView name kind =>
    refine .inr (.inr ?_)
    rw [step]
    cases hr : m.registerView name kind with
    | error e => exact .refl m
    | ok m' => exact .single (.around (registerView_around hr))
  | registerDefaults => exact .inr (.inr (.single (.around m.registerDefaults_around)))
  | message message => exact .inr (.inr (message_moves h message))
  | update comm state => exact .inr (.inr (update_moves m comm state))
  | status comm report => exact .inr (.inr (status_moves m comm report))
  | output comm text => exact .inr (.inr (.single (.around (m.output_around comm text))))
  | closeComm comm => exact .inr (.inr (.single (.close m comm)))
  | execute cell message =>
    cases hr : m.execute cell message with
    | error e =>
      refine .inr (.inr ?_)
      rw [step, hr]
      exact .refl m
    | ok executed =>
      refine .inr (.inl ⟨cell, message, executed, rfl, hr, ?_⟩)
      rw [step, hr]
      exact ⟨rfl, rfl⟩
  | display comm name parent group =>
    refine .inr (.inr ?_)
    rw [step]
    cases hd : m.display comm name parent group with
    | error e => exact .refl m
    | ok shown => exact display_moves h hd
  | change view changes =>
    refine .inr (.inr ?_)
    rw [step, localChanges]
    cases hm : m.modelOf view with
    | error e =>
      rw [change, hm]
      exact .refl m
    | ok found =>
      obtain ⟨m', frames, state, hc, hmoves⟩ := change_moves hm changes
      rw [hc]
      exact hmoves
  | ui view event =>
    refine .inr (.inr ?_)
    rw [step]
    cases hm : m.modelOf view with
    | error e =>
      rw [handleUi, localChanges, hm]
      exact .refl m
    | ok found =>
      obtain ⟨m', frames, hc, hmoves⟩ := handleUi_moves hm event
      rw [hc]
      exact hmoves
  | sendCustom view content =>
    refine .inr (.inr ?_)
    rw [step]
    cases hm : m.modelOf view with
    | error e =>
      rw [sendCustom, hm]
      cases e <;> exact .refl m
    | ok found =>
      obtain ⟨m', frames, hc, hmoves⟩ := sendCustom_moves hm content
      rw [hc]
      exact hmoves
  | removeView view => exact .inr (.inr (.single (.remove m view)))

end Manager

end WidgetSync
