import WidgetSync.Proofs.Manager.Placement
import WidgetSync.Proofs.Manager.Showing

/-! Where the views come from that are live after an operation: it has displayed them, or they were live before and had
a sequel. So what holds of new views, and goes on to hold in every sequel, holds of all live views. -/
namespace WidgetSync.Manager

open View

variable {m m' : Manager} {comm : CommId} {model : Model} {op : Operation} {id : ViewId}

/-- Where a view comes from that is live after an operation: it was displayed by it, or it was live before. -/
inductive Origin (m : Manager) (op : Operation) (id : ViewId) (v' : View) (model' : Model) : Prop
  | displayed (kind : ViewKind) (comm : CommId) (group : GroupKey)
      (drawn : v' = (View.new kind comm group).refresh model')
  | earlier {slot : Slot} {model : Model} (live : m.views.get? id = some slot)
      (owner : m.models.get? slot.view.model = some model) (sequel : slot.view.Sequel op id model v' model')

/-- Every view that is live after an operation has an origin. -/
def Traced (m : Manager) (op : Operation) (m' : Manager) : Prop :=
  ∀ id slot' model', m'.views.get? id = some slot' → m'.models.get? slot'.view.model = some model' →
    m.Origin op id slot'.view model'

theorem Traced.of_same (hv : m'.views = m.views) (hm : m'.models = m.models) : m.Traced op m' := by
  intro id slot model hs hown
  rw [hv] at hs
  rw [hm] at hown
  exact .earlier hs hown (.kept (.refl _) (.refl _))

theorem Consistent.traced_affects (h : m.Consistent) (hb : m.about op = some comm)
    (hm : m.models.get? comm = some model) (hop : ∀ view changes, op ≠ .change view changes) :
    m.Traced op (m.step op).manager := by
  rw [(h.affects hb hm).manager]
  intro id slot' model' hs' hm'
  rw [get?_undergo_views] at hs'
  obtain ⟨slot, hs, rfl⟩ := Option.map_eq_some_iff.mp hs'
  have hmodels : (m.undergo comm (op.effect model (m.requestOn comm op))).models.get? slot.view.model =
      if comm = slot.view.model then some (op.effect model (m.requestOn comm op)).model
      else m.models.get? slot.view.model := OrdMap.get?_insert_eq _ _ _ _
  rw [Slot.redraw] at hm' ⊢
  by_cases hc : slot.view.model = comm
  · rw [if_pos hc] at hm' ⊢
    rw [op.effect_keeps, hmodels, if_pos hc.symm] at hm'
    obtain rfl := Option.some.inj hm'
    exact .earlier hs (hc ▸ hm) (affects_sequel hb hm hs hc hop)
  · rw [if_neg hc] at hm' ⊢
    rw [hmodels, if_neg (Ne.symm hc)] at hm'
    exact .earlier hs hm' (.kept (.refl _) (.refl _))

theorem Displayed.traced {kind : ViewKind} {group : GroupKey} {hosts ids : List ViewId}
    (hd : m.Displayed m' comm kind group model hosts ids) (hm : m.models.get? comm = some model)
    (hhosts : ∀ host ∈ hosts, ∃ slot, m.views.get? host = some slot) : m.Traced op m' := by
  -- Displaying leaves the state of every model as it is.
  have hstate {c : CommId} {model' : Model} (hm' : m'.models.get? c = some model') :
      ∃ old, m.models.get? c = some old ∧ old.SameState model' := by
    by_cases hc : c = comm
    · subst hc
      rw [hd.model] at hm'
      obtain rfl := Option.some.inj hm'
      exact ⟨model, hm, rfl, rfl⟩
    · rw [hd.models c hc] at hm'
      exact ⟨model', hm', .refl _⟩
  intro id slot' model' hs' hm'
  by_cases hid : id ∈ ids
  · obtain ⟨i, hi⟩ := List.mem_iff_getElem?.mp hid
    obtain ⟨-, hfresh⟩ := hd.fresh i id hi
    obtain rfl := Option.some.inj (hs'.symm.trans hfresh)
    have hown : ((View.new kind comm group).refresh model).model = comm :=
      ((View.new kind comm group).refresh_keeps model).1
    rw [hown, hd.model] at hm'
    obtain rfl := Option.some.inj hm'
    exact .displayed kind comm group (View.refresh_congr rfl rfl _)
  by_cases hhost : id ∈ hosts
  · obtain ⟨i, hi⟩ := List.mem_iff_getElem?.mp hhost
    obtain ⟨slot, hs⟩ := hhosts id hhost
    obtain ⟨child, -, hget⟩ := hd.hosting i id slot hi hs
    obtain rfl := Option.some.inj (hs'.symm.trans hget)
    obtain ⟨old, hold, hsame⟩ := hstate hm'
    exact .earlier hs hold (.kept ⟨rfl, rfl, rfl, rfl, rfl⟩ hsame)
  · rw [hd.others id hhost hid] at hs'
    obtain ⟨old, hold, hsame⟩ := hstate hm'
    exact .earlier hs' hold (.kept (.refl _) hsame)

theorem Consistent.traced_display (h : m.Consistent) (ho : m.InOrder) {name : String} {parent : Option CommId}
    {group : GroupKey} {ids : List ViewId} (hd : m.display comm name parent group = .ok (m', ids)) :
    m.Traced op m' := by
  have hknown : (∃ kind, m.viewKinds.get? name = some kind) ∧ ∃ model, m.models.get? comm = some model := by
    rw [display] at hd
    split at hd
    · contradiction
    · next kind hk =>
      split at hd
      · contradiction
      · next hc => exact ⟨⟨kind, hk⟩, OrdMap.contains_iff.mp (by simpa using hc)⟩
  obtain ⟨⟨kind, hk⟩, model, hm⟩ := hknown
  obtain ⟨after, shown, hafter, hdisplayed⟩ := h.displayed ho hk hm parent group
  rw [hd] at hafter
  obtain ⟨rfl, rfl⟩ := Prod.mk.inj (Except.ok.inj hafter)
  exact hdisplayed.traced hm fun host hh => live_of_mem_hosts hh

theorem Consistent.traced_takeDown (h : m.Consistent) {walk : List ViewId} {models : Models}
    (hsp : Spared m walk models) (hn : walk.Nodup) : m.Traced op (Manager.takeDown { m with models } walk).1 := by
  intro id slot' model' hs' hm'
  obtain ⟨-, slot, hs, rfl⟩ := Arena.get?_without_eq_some.mp hs'
  obtain ⟨old, hold, rfl⟩ := h.model_of_departures hsp hn hm'
  obtain ⟨-, -, hattributes, hcss, -⟩ := old.leaveAll_keeps _
  exact .earlier hs hold (.kept ⟨rfl, rfl, rfl, rfl, rfl⟩ ⟨hattributes, hcss⟩)

theorem Consistent.traced_openComm (h : m.Consistent) {request : CommOpen} (ho : m.openComm request = .ok m') :
    m.Traced op m' := by
  obtain ⟨hdead, kind, rfl⟩ := openComm_ok ho
  intro id slot model hs hm
  -- The new model has no views, since every view had its model before.
  obtain ⟨found, hfound, _⟩ := h.registered id slot hs
  have hne : request.comm ≠ slot.view.model := OrdMap.ne_of_get? hdead hfound
  rw [setModel, OrdMap.get?_insert_eq, if_neg hne] at hm
  exact .earlier hs hm (.kept (.refl _) (.refl _))

theorem Consistent.traced (h : m.Consistent) (ho : m.InOrder) (hop : ∀ view changes, op ≠ .change view changes) :
    m.Traced op (m.step op).manager := by
  have hsame : m.Traced op m := .of_same rfl rfl
  -- What is about a comm is an effect on it, or fails; the rest opens, displays, takes down or leaves all views alone.
  cases hb : m.about op with
  | some comm =>
    cases hm : m.models.get? comm with
    | none =>
      rw [(h.still hb hm).1]
      exact hsame
    | some model => exact h.traced_affects hb hm hop
  | none =>
    cases op with
    | openComm request =>
      rw [Manager.step]
      cases hopen : m.openComm request with
      | error e => exact hsame
      | ok opened => exact h.traced_openComm hopen
    | removeView id =>
      show m.Traced _ (m.removeView id).1
      rw [removeView_eq h.forest]
      exact h.traced_takeDown (spared_self m _) (h.forest.subtree_nodup id)
    | closeComm comm =>
      show m.Traced _ (m.closeComm comm).1
      cases hm : m.models.get? comm with
      | none =>
        rw [closeComm_of_dead hm]
        exact hsame
      | some model =>
        rw [closeComm_of_live h.forest hm]
        exact h.traced_takeDown (h.spared_erase hm (h.views_subset_sweep hm)) (h.forest.sweep_nodup _)
    | display comm name parent group =>
      rw [Manager.step]
      cases hd : m.display comm name parent group with
      | error e => exact hsame
      | ok shown => exact h.traced_display ho hd
    | message message =>
      show m.Traced _ (m.message message).1
      rw [Manager.message]
      split
      · exact hsame
      · split
        · exact hsame
        · next name parent cell _ =>
          cases hd : m.display message.comm name parent (m.resolveGroup cell message.parentMessage) with
          | error e => exact hsame
          | ok shown => exact h.traced_display ho hd
        · next state hj => simp [about, hj] at hb
    | registerModel name kind =>
      rw [Manager.step]
      cases he : m.registerModel name kind with
      | error e => exact hsame
      | ok registered => exact .of_same (registerModel_around he).views (registerModel_around he).models
    | registerView name kind =>
      rw [Manager.step]
      cases he : m.registerView name kind with
      | error e => exact hsame
      | ok registered => exact .of_same (registerView_around he).views (registerView_around he).models
    | registerDefaults => exact .of_same m.registerDefaults_around.views m.registerDefaults_around.models
    | output comm text => exact .of_same (m.output_around comm text).views (m.output_around comm text).models
    | execute cell message =>
      rw [Manager.step]
      cases he : m.execute cell message with
      | error e => exact hsame
      | ok executed =>
        obtain ⟨notebook, _, rfl⟩ := execute_ok he
        exact .of_same rfl rfl
    | update comm state => contradiction
    | status comm report => contradiction
    | change view changes => exact absurd rfl (hop view changes)
    | ui view event =>
      rw [Manager.step, handleUi, modelOf_of_dead hb]
      exact hsame
    | sendCustom view content =>
      rw [Manager.step, sendCustom, modelOf_of_dead hb]
      exact hsame

/-! ### Runs -/

/-- Something holds of every live view and its model. -/
def Holds (m : Manager) (P : ViewId → View → Model → Prop) : Prop :=
  ∀ id slot model, m.views.get? id = some slot → m.models.get? slot.view.model = some model → P id slot.view model

variable {P : ViewId → View → Model → Prop} {Q : CommId → Model → Prop}

theorem Traced.holds (ht : m.Traced op m') (hp : m.Pictured [] fun _ => False)
    (hQ : ∀ comm model, m'.models.get? comm = some model → Q comm model)
    (hnew : ∀ id kind comm group model, Q comm model → P id ((View.new kind comm group).refresh model) model)
    (hnext : ∀ id v model v' model', v.Shows model.attributes → v.Sequel op id model v' model' → Q v.model model' →
      P id v model → P id v' model') (hP : m.Holds P) : m'.Holds P := by
  intro id slot' model' hs' hm'
  cases ht id slot' model' hs' hm' with
  | displayed kind comm group drawn =>
    rw [drawn] at hm' ⊢
    rw [(View.refresh_keeps _ model').1] at hm'
    exact hnew id kind comm group model' (hQ comm model' hm')
  | @earlier slot model live owner sequel =>
    have hshows := hp.current id slot model live List.not_mem_nil not_false owner
    rw [sequel.owner] at hm'
    exact hnext id slot.view model slot'.view model' hshows sequel (hQ _ model' hm') (hP id slot model live owner)

/-- What holds of new views, and goes on to hold in every sequel, holds of all views after a run. Both may rest on what
is known of the models in the states that the run goes through. -/
theorem Consistent.holds_run (h : m.Consistent) (ho : m.InOrder) (hp : m.Pictured [] fun _ => False)
    {ops : List Operation} (hops : ∀ view changes, .change view changes ∉ ops)
    (hQ : ∀ before later, ops = before ++ later → ∀ comm model,
      (m.run before).1.models.get? comm = some model → Q comm model)
    (hnew : ∀ id kind comm group model, Q comm model → P id ((View.new kind comm group).refresh model) model)
    (hnext : ∀ op id v model v' model', v.Shows model.attributes → v.Sequel op id model v' model' →
      Q v.model model' → P id v model → P id v' model') (hP : m.Holds P) : (m.run ops).1.Holds P := by
  induction ops generalizing m with
  | nil => exact hP
  | cons op rest ih =>
    have hop : ∀ view changes, op ≠ .change view changes := fun view changes he =>
      hops view changes (he ▸ List.mem_cons_self)
    have hfirst := (h.traced ho hop).holds hp (hQ [op] rest rfl) hnew (hnext op) hP
    have hpictured := h.pictured_step hp op fun view changes he => (hop view changes he).elim
    refine ih (h.step op) (h.inOrder_step ho op) hpictured ?_ ?_ hfirst
    · exact fun view changes hmem => hops view changes (List.mem_cons_of_mem op hmem)
    · exact fun before later he => hQ (op :: before) later (congrArg (op :: ·) he)

end WidgetSync.Manager
