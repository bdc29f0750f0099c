import WidgetSync.Proofs.Manager.Sequel
import WidgetSync.Proofs.View.Picture

/-! Every live view shows its model. The views of a model are drawn anew whenever the model changes, except for the one
that the user has acted on, which has drawn the change itself. Only a change that a view makes of its own accord, which
no event of a session does, leaves that view as it was. -/
namespace WidgetSync

/-- One view after another: it is drawn if it was, and it shows the attributes after if it showed those before. -/
structure View.Follows (v v' : View) (before after : Attributes) : Prop where
  drawn : (∃ a, v.Shows a) → ∃ a, v'.Shows a
  current : v.Shows before → v'.Shows after

namespace View

variable {v : View}

theorem follows_refresh (v : View) (before : Attributes) (m : Model) :
    v.Follows (v.refresh m) before m.attributes where
  drawn := by
    rintro ⟨a, ha⟩
    exact ⟨_, ha.ready.refresh m⟩
  current := fun h => h.ready.refresh m

theorem follows_handleEvent (v : View) (event : UiEvent) (m : Model) :
    v.Follows (v.handleEvent event m).1 m.attributes (after m.attributes (v.handleEvent event m).2) where
  drawn := by
    rintro ⟨a, ha⟩
    exact ha.handleEvent event m
  current := fun h => h.handleEvent_after event

/-- To show something is a matter of the element. -/
theorem Shows.of_same {v' : View} {a : Attributes} (h : v.Shows a) (hk : v'.kind = v.kind)
    (he : v'.element = v.element) (hv : v'.isVisible = v.isVisible) : v'.Shows a := by
  rw [Shows, hk, he, hv]
  exact h

theorem Ready.of_same {v' : View} (h : v.Ready) (hk : v'.kind = v.kind)
    (he : v'.element = v.element) (hv : v'.isVisible = v.isVisible) : v'.Ready := by
  rw [Ready, hk, he, hv]
  exact h

end View

/-- Whatever an operation makes of a view, the view follows its model. -/
theorem View.Sequel.follows {op : Operation} {id : ViewId} {v v' : View} {model model' : Model}
    (h : v.Sequel op id model v' model') : v.Follows v' model.attributes model'.attributes := by
  cases h with
  | kept look state =>
    refine ⟨?_, fun hshows => ?_⟩
    · rintro ⟨a, ha⟩
      exact ⟨a, ha.of_same look.kind look.element look.isVisible⟩
    · rw [state.attributes]
      exact hshows.of_same look.kind look.element look.isVisible
  | updated brings => exact v.follows_refresh model.attributes _
  | followed value attributes css => exact v.follows_refresh model.attributes model'
  | acted ui attributes css =>
    rw [attributes]
    exact v.follows_handleEvent _ model

namespace Manager

/-- Every live view is ready to be drawn, and is drawn unless it has only just been placed; and unless it is out of
date it shows its model. -/
structure Pictured (m : Manager) (placed : List ViewId) (stale : ViewId → Prop) : Prop where
  ready : ∀ id slot, m.views.get? id = some slot → slot.view.Ready
  drawn : ∀ id slot, m.views.get? id = some slot → id ∉ placed → ∃ a, slot.view.Shows a
  current : ∀ id slot model, m.views.get? id = some slot → id ∉ placed → ¬stale id →
    m.models.get? slot.view.model = some model → slot.view.Shows model.attributes

variable {m m' : Manager} {comm : CommId} {model : Model} {placed : List ViewId} {stale : ViewId → Prop}
  {op : Operation}

/-! ### Operations on one comm -/

/-- The views of a comm follow what becomes of its model. A view that makes a change of its own accord is let alone. -/
theorem affects_follows (hb : m.about op = some comm) (hm : m.models.get? comm = some model) {id : ViewId}
    {slot : Slot} (hs : m.views.get? id = some slot) (hc : slot.view.model = comm) :
    let e := op.effect model (m.requestOn comm op)
    slot.view.Follows (e.draw id slot.view) model.attributes e.model.attributes ∨
      ((∃ changes, op = .change id changes) ∧ e.draw id slot.view = slot.view) := by
  by_cases hchange : ∃ caller changes, op = .change caller changes
  · obtain ⟨caller, changes, rfl⟩ := hchange
    obtain ⟨vslot, hvs, hvc⟩ := Option.map_eq_some_iff.mp hb
    have hr : m.request (.change caller changes) = some (comm, .change caller changes) := by
      simp only [request, modelOf, hvs, hvc, hm]
    rw [requestOn_self hr]
    simp only [Operation.effect, Request.draw]
    split
    · next he => exact .inr ⟨⟨changes, he ▸ rfl⟩, rfl⟩
    · exact .inl (slot.view.follows_refresh _ _)
  · have hop : ∀ view changes, op ≠ .change view changes := fun view changes he => hchange ⟨view, changes, he⟩
    exact .inl (affects_sequel hb hm hs hc hop).follows

/-- An effect on a comm keeps the views of that comm up to date, and all others as they are. -/
theorem Consistent.pictured_affects (h : m.Consistent) (hp : m.Pictured [] stale) (hb : m.about op = some comm)
    (hm : m.models.get? comm = some model)
    (hstale : ∀ view changes, op = .change view changes → stale view) :
    (m.step op).manager.Pictured [] stale := by
  rw [(h.affects hb hm).manager]
  let e := op.effect model (m.requestOn comm op)
  have hview {id : ViewId} {slot' : Slot} (hs' : (m.undergo comm e).views.get? id = some slot') :
      ∃ slot, m.views.get? id = some slot ∧ slot' = slot.redraw comm e.draw id := by
    rw [get?_undergo_views] at hs'
    obtain ⟨slot, hs, he⟩ := Option.map_eq_some_iff.mp hs'
    exact ⟨slot, hs, he.symm⟩
  have hdrawn : ∀ id slot, (m.undergo comm e).views.get? id = some slot → ∃ a, slot.view.Shows a := by
    intro id slot' hs'
    obtain ⟨slot, hs, rfl⟩ := hview hs'
    have hshown := hp.drawn id slot hs List.not_mem_nil
    rw [Slot.redraw]
    split
    · next hc =>
      rcases affects_follows hb hm hs hc with hf | ⟨_, hsame⟩
      · exact hf.drawn hshown
      · exact hsame.symm ▸ hshown
    · exact hshown
  refine ⟨fun id slot hs => (hdrawn id slot hs).elim fun a ha => ha.ready, fun id slot hs _ => hdrawn id slot hs,
    fun id slot' model' hs' _ hid hm' => ?_⟩
  obtain ⟨slot, hs, rfl⟩ := hview hs'
  -- No view changes hands, so a view of another comm has the slot and the model that it had.
  have hown : (slot.redraw comm e.draw id).view.model = slot.view.model := by
    rw [Slot.redraw]
    split
    · exact Operation.effect_keeps op model _ id slot.view
    · rfl
  have hmodels : (m.undergo comm e).models.get? slot.view.model =
      if comm = slot.view.model then some e.model else m.models.get? slot.view.model :=
    OrdMap.get?_insert_eq _ _ _ _
  rw [hown, hmodels] at hm'
  by_cases hc : slot.view.model = comm
  · rw [if_pos hc.symm] at hm'
    obtain rfl := Option.some.inj hm'
    rw [Slot.redraw, if_pos hc]
    rcases affects_follows hb hm hs hc with hf | ⟨⟨changes, ho⟩, _⟩
    · exact hf.current (hp.current id slot model hs List.not_mem_nil hid (hc ▸ hm))
    · exact absurd (hstale id changes ho) hid
  · rw [if_neg (Ne.symm hc)] at hm'
    rw [Slot.redraw, if_neg hc]
    exact hp.current id slot model' hs List.not_mem_nil hid hm'

/-! ### Displaying -/

/-- A new view waits to be drawn, and its host shows what it showed. -/
theorem Consistent.pictured_place (h : m.Consistent) (hp : m.Pictured placed stale) {placement : Placement}
    (hhost : ∀ host, placement = .host host → ∃ slot, m.views.get? host = some slot)
    (kind : ViewKind) (comm : CommId) (group : GroupKey) :
    (m.place kind comm group placement).Pictured (placed ++ [⟨m.nextView⟩]) stale := by
  have hn := h.next_not_host hhost
  -- The host is told of the new view, which is nothing that it draws.
  have hadopt (slot : Slot) (x : ViewId) : (adopt slot x placement ⟨m.nextView⟩).view.kind = slot.view.kind ∧
      (adopt slot x placement ⟨m.nextView⟩).view.element = slot.view.element ∧
      (adopt slot x placement ⟨m.nextView⟩).view.isVisible = slot.view.isVisible := by
    rw [adopt]
    split <;> exact ⟨rfl, rfl, rfl⟩
  have hold {x : ViewId} (hx : x ∉ placed ++ [⟨m.nextView⟩]) : x ∉ placed ∧ x ≠ ⟨m.nextView⟩ := by
    simpa using hx
  refine ⟨fun id slot' hs' => ?_, fun id slot' hs' hid => ?_, fun id slot' model' hs' hid hst hm' => ?_⟩
  · rcases live_of_place kind comm group hn hs' with ⟨_, rfl⟩ | ⟨slot, hs, rfl⟩
    · exact View.new_ready kind comm group
    · obtain ⟨h1, h2, h3⟩ := hadopt slot id
      exact (hp.ready id slot hs).of_same h1 h2 h3
  · rcases live_of_place kind comm group hn hs' with ⟨rfl, _⟩ | ⟨slot, hs, rfl⟩
    · exact absurd rfl (hold hid).2
    · obtain ⟨h1, h2, h3⟩ := hadopt slot id
      obtain ⟨a, ha⟩ := hp.drawn id slot hs (hold hid).1
      exact ⟨a, ha.of_same h1 h2 h3⟩
  · rcases live_of_place kind comm group hn hs' with ⟨rfl, _⟩ | ⟨slot, hs, rfl⟩
    · exact absurd rfl (hold hid).2
    · obtain ⟨h1, h2, h3⟩ := hadopt slot id
      rw [(adopt_keeps slot id placement _).1] at hm'
      obtain ⟨found, hfound, rfl⟩ := model_of_place hm'
      have hshown := hp.current id slot found hs (hold hid).1 hst hfound
      -- The model has one more view, and its attributes are what they were.
      have hattributes : (if comm = slot.view.model then found.enroll group ⟨m.nextView⟩ else found).attributes =
          found.attributes := by
        split
        · exact congrArg (·.2.2.1) (found.content_enroll group _)
        · rfl
      rw [hattributes]
      exact hshown.of_same h1 h2 h3

theorem Consistent.pictured_createInHosts (h : m.Consistent) (hp : m.Pictured placed stale)
    (hm : m.models.get? comm = some model) (kind : ViewKind) (group : GroupKey) {hosts : List ViewId}
    (hh : ∀ host ∈ hosts, ∃ slot, m.views.get? host = some slot) :
    (m.createInHosts kind comm group hosts).1.Pictured
      (placed ++ (m.createInHosts kind comm group hosts).2) stale := by
  induction hosts generalizing m model placed with
  | nil => simpa [createInHosts] using hp
  | cons host rest ih =>
    have hlive : ∀ x, Placement.host host = .host x → ∃ slot, m.views.get? x = some slot := by
      intro x hx
      exact Placement.host.inj hx ▸ hh host List.mem_cons_self
    have hn := h.next_not_host hlive
    have hmodel := m.get?_place_models kind comm group (.host host) comm
    rw [if_pos rfl, hm, Option.map_some] at hmodel
    -- None of the new views is drawn before all hosts have theirs.
    have hfirst := h.pictured_place hp hlive kind comm group
    have hrest := ih (h.place hlive kind group hm) hfirst hmodel fun x hx => by
      obtain ⟨slot, hs⟩ := hh x (List.mem_cons_of_mem _ hx)
      exact ⟨_, live_place kind comm group hn h.next_dead hs⟩
    rw [createInHosts_cons]
    rw [List.append_assoc] at hrest
    exact hrest

/-- The view that is drawn anew shows its model. -/
theorem Consistent.pictured_refreshView (h : m.Consistent) {id : ViewId} (hp : m.Pictured (id :: placed) stale) :
    (m.refreshView id).Pictured placed stale := by
  have hview {x : ViewId} {slot' : Slot} (hs' : (m.refreshView id).views.get? x = some slot') :
      ∃ slot model, m.views.get? x = some slot ∧ m.models.get? slot.view.model = some model ∧
        slot' = if id = x then { slot with view := slot.view.refresh model } else slot := by
    rw [refreshView, OrdMap.get?_modify] at hs'
    split at hs'
    · next hx =>
      obtain ⟨slot, hs, he⟩ := Option.map_eq_some_iff.mp hs'
      obtain ⟨model, hm, _⟩ := h.registered x slot hs
      rw [hm] at he
      exact ⟨slot, model, hs, hm, by rw [if_pos hx, ← he]⟩
    · next hx =>
      obtain ⟨model, hm, _⟩ := h.registered x slot' hs'
      exact ⟨slot', model, hs', hm, by rw [if_neg hx]⟩
  have hother {x : ViewId} (hx : id ≠ x) (hplaced : x ∉ placed) : x ∉ id :: placed := by
    simp [hx.symm, hplaced]
  refine ⟨fun x slot' hs' => ?_, fun x slot' hs' hx => ?_, fun x slot' model' hs' hx hst hm' => ?_⟩
  · obtain ⟨slot, model, hs, hm, rfl⟩ := hview hs'
    have hready := hp.ready x slot hs
    split
    · exact (hready.refresh model).ready
    · exact hready
  · obtain ⟨slot, model, hs, hm, rfl⟩ := hview hs'
    split
    · exact ⟨_, (hp.ready x slot hs).refresh model⟩
    · next hne => exact hp.drawn x slot hs (hother hne hx)
  · obtain ⟨slot, model, hs, hm, rfl⟩ := hview hs'
    have hmodels : (m.refreshView id).models = m.models := rfl
    rw [hmodels] at hm'
    by_cases hne : id = x
    · rw [if_pos hne] at hm' ⊢
      rw [(slot.view.refresh_keeps model).1, hm] at hm'
      obtain rfl := Option.some.inj hm'
      exact (hp.ready x slot hs).refresh model
    · rw [if_neg hne] at hm' ⊢
      exact hp.current x slot model' hs (hother hne hx) hst hm'

theorem Consistent.pictured_refresh (h : m.Consistent) {ids : List ViewId} (hp : m.Pictured ids stale) :
    (ids.foldl refreshView m).Pictured [] stale := by
  induction ids generalizing m with
  | nil => exact hp
  | cons id rest ih => exact ih (h.move (refreshView_move m id)) (h.pictured_refreshView hp)

theorem Consistent.pictured_display (h : m.Consistent) (hp : m.Pictured [] stale) {name : String}
    {parent : Option CommId} {group : GroupKey} {ids : List ViewId}
    (hd : m.display comm name parent group = .ok (m', ids)) : m'.Pictured [] stale := by
  rw [display] at hd
  split at hd
  · exact absurd hd (by simp)
  · next kind _ =>
    split at hd
    · exact absurd hd (by simp)
    · next hc =>
      have hc : m.models.contains comm = true := by simpa using hc
      obtain ⟨model, hm⟩ := OrdMap.contains_iff.mp hc
      cases hhosts : m.hosts parent group with
      | nil =>
        rw [hhosts] at hd
        simp only [createInArea_eq] at hd
        obtain ⟨rfl, rfl⟩ := Prod.mk.inj (Except.ok.inj hd)
        have hnone : ∀ host, Placement.area group = .host host → ∃ slot, m.views.get? host = some slot :=
          fun _ he => absurd he (by simp)
        have hplaced := h.pictured_place hp hnone kind comm group
        exact (h.place hnone kind group hm).pictured_refresh hplaced
      | cons host rest =>
        rw [hhosts] at hd
        obtain ⟨hm', _⟩ := Prod.mk.inj (Except.ok.inj hd)
        have hlive : ∀ x ∈ host :: rest, ∃ slot, m.views.get? x = some slot := by
          intro x hx
          exact live_of_mem_hosts (hhosts ▸ hx)
        have hplaced := h.pictured_createInHosts hp hm kind group hlive
        rw [← hm']
        exact (h.moves (createInHosts_moves h hm kind group hlive)).pictured_refresh hplaced

/-! ### Every operation -/

/-- To take views down changes what no other view shows, and no model that is left. -/
theorem Consistent.pictured_takeDown (h : m.Consistent) (hp : m.Pictured [] stale) {walk : List ViewId}
    {models : Models} (hsp : Spared m walk models) (hn : walk.Nodup) :
    (Manager.takeDown { m with models } walk).1.Pictured [] stale := by
  have hlive {id : ViewId} {slot' : Slot} (hs : (m.views.without walk).get? id = some slot') :
      ∃ slot, m.views.get? id = some slot ∧ slot' = slot.without walk := by
    obtain ⟨_, slot, hs, he⟩ := Arena.get?_without_eq_some.mp hs
    exact ⟨slot, hs, he.symm⟩
  refine ⟨fun id slot' hs' => ?_, fun id slot' hs' _ => ?_, fun id slot' model' hs' _ hid hm' => ?_⟩
  · obtain ⟨slot, hs, rfl⟩ := hlive hs'
    exact (hp.ready id slot hs).of_same rfl rfl rfl
  · obtain ⟨slot, hs, rfl⟩ := hlive hs'
    obtain ⟨a, ha⟩ := hp.drawn id slot hs List.not_mem_nil
    exact ⟨a, ha.of_same rfl rfl rfl⟩
  · obtain ⟨slot, hs, rfl⟩ := hlive hs'
    obtain ⟨model, hm, rfl⟩ := h.model_of_departures hsp hn hm'
    rw [(model.leaveAll_keeps _).2.2.1]
    exact (hp.current id slot model hs List.not_mem_nil hid hm).of_same rfl rfl rfl

theorem Pictured.of_same (hp : m.Pictured placed stale) (hv : m'.views = m.views) (hm : m'.models = m.models) :
    m'.Pictured placed stale := by
  refine ⟨?_, ?_, ?_⟩
  · rw [hv]
    exact hp.ready
  · rw [hv]
    exact hp.drawn
  · rw [hv, hm]
    exact hp.current

theorem Consistent.pictured_step (h : m.Consistent) (hp : m.Pictured [] stale) (op : Operation)
    (hstale : ∀ view changes, op = .change view changes → stale view) :
    (m.step op).manager.Pictured [] stale := by
  -- What is about a comm is an effect on it, or fails; the rest opens, displays, takes down or leaves all views alone.
  cases hb : m.about op with
  | some comm =>
    cases hm : m.models.get? comm with
    | none => exact (h.still hb hm).1.symm ▸ hp
    | some model => exact h.pictured_affects hp hb hm hstale
  | none =>
    cases op with
    | openComm request =>
      rw [Manager.step]
      cases ho : m.openComm request with
      | error e => exact hp
      | ok opened =>
        obtain ⟨hdead, kind, rfl⟩ := openComm_ok ho
        refine ⟨hp.ready, hp.drawn, fun id slot model hs hid hst hm => ?_⟩
        -- The new model has no views, since every view had its model before.
        obtain ⟨found, hfound, _⟩ := h.registered id slot hs
        have hne : request.comm ≠ slot.view.model := OrdMap.ne_of_get? hdead hfound
        have hmodels : (m.setModel request.comm
            ((kind.model (m.hub.comm request.comm)).withThrottle m.throttle)).models.get? slot.view.model =
            m.models.get? slot.view.model := by
          rw [setModel, OrdMap.get?_insert_eq, if_neg hne]
        exact hp.current id slot model hs hid hst (hmodels ▸ hm)
    | removeView id =>
      show (m.removeView id).1.Pictured [] stale
      rw [removeView_eq h.forest]
      exact h.pictured_takeDown hp (spared_self m _) (h.forest.subtree_nodup id)
    | closeComm comm =>
      show (m.closeComm comm).1.Pictured [] stale
      cases hm : m.models.get? comm with
      | none =>
        rw [closeComm_of_dead hm]
        exact hp
      | some model =>
        rw [closeComm_of_live h.forest hm]
        exact h.pictured_takeDown hp (h.spared_erase hm (h.views_subset_sweep hm)) (h.forest.sweep_nodup _)
    | display comm name parent group =>
      rw [Manager.step]
      cases hd : m.display comm name parent group with
      | error e => exact hp
      | ok shown => exact h.pictured_display hp hd
    | message message =>
      show (m.message message).1.Pictured [] stale
      rw [Manager.message]
      split
      · exact hp
      · split
        · exact hp
        · next name parent cell _ =>
          cases hd : m.display message.comm name parent (m.resolveGroup cell message.parentMessage) with
          | error e => exact hp
          | ok shown => exact h.pictured_display hp hd
        · next state hj => simp [about, hj] at hb
    | registerModel name kind =>
      rw [Manager.step]
      cases he : m.registerModel name kind with
      | error e => exact hp
      | ok registered => exact hp.of_same (registerModel_around he).views (registerModel_around he).models
    | registerView name kind =>
      rw [Manager.step]
      cases he : m.registerView name kind with
      | error e => exact hp
      | ok registered => exact hp.of_same (registerView_around he).views (registerView_around he).models
    | registerDefaults => exact hp.of_same m.registerDefaults_around.views m.registerDefaults_around.models
    | output comm text => exact hp.of_same (m.output_around comm text).views (m.output_around comm text).models
    | execute cell message =>
      rw [Manager.step]
      cases he : m.execute cell message with
      | error e => exact hp
      | ok executed =>
        obtain ⟨notebook, _, rfl⟩ := execute_ok he
        exact hp.of_same rfl rfl
    | update comm state => contradiction
    | status comm report => contradiction
    | change view changes =>
      rw [Manager.step, change, modelOf_of_dead hb]
      exact hp
    | ui view event =>
      rw [Manager.step, handleUi, modelOf_of_dead hb]
      exact hp
    | sendCustom view content =>
      rw [Manager.step, sendCustom, modelOf_of_dead hb]
      exact hp

theorem Consistent.pictured_run (h : m.Consistent) (hp : m.Pictured [] stale) {ops : List Operation}
    (hstale : ∀ view changes, .change view changes ∈ ops → stale view) :
    (m.run ops).1.Pictured [] stale := by
  induction ops generalizing m with
  | nil => exact hp
  | cons op rest ih =>
    have hfirst := h.pictured_step hp op fun view changes ho => hstale view changes (ho ▸ List.mem_cons_self)
    exact ih (h.step op) hfirst fun view changes hmem => hstale view changes (List.mem_cons_of_mem _ hmem)

theorem new_pictured (notebook : Notebook) (throttle : Nat) (stale : ViewId → Prop) :
    (new notebook throttle).Pictured [] stale := by
  have hdead (id : ViewId) : (new notebook throttle).views.get? id = none := rfl
  refine ⟨fun id slot hs => ?_, fun id slot hs _ => ?_, fun id slot model hs _ _ _ => ?_⟩ <;>
    exact absurd hs (by rw [hdead]; exact nofun)

end Manager

end WidgetSync
