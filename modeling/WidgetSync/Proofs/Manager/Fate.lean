import WidgetSync.Proofs.Manager.Routine
import WidgetSync.Proofs.Manager.Subtree

/-! What one operation does to one comm: what becomes of its model, and which frames are sent on it. Six things can
happen, and whatever holds of a comm throughout a run is proved by going through them. -/
namespace WidgetSync

namespace Model

theorem Outlasts.content {walk : List ViewId} {m m' : Model} (h : m.Outlasts walk m') :
    m'.content = m.content := by
  simp only [Model.content, h.typeName, h.comm, h.attributes, h.css, h.pending, h.throttle, h.buffer,
    h.updating]

theorem Outlasts.mem_views {walk : List ViewId} {m m' : Model} (h : m.Outlasts walk m') {x : ViewId} :
    x ∈ m'.views ↔ x ∈ m.views ∧ x ∉ walk := by
  simp only [Model.mem_views, h.viewsIn, List.mem_filter, decide_eq_true_eq]
  constructor
  · rintro ⟨group, hx, hw⟩
    exact ⟨⟨group, hx⟩, hw⟩
  · rintro ⟨⟨group, hx⟩, hw⟩
    exact ⟨group, hx, hw⟩

/-- A model that is asked something keeps its comm and its views. -/
theorem ask_outline (m : Model) (r : Request) : (m.ask r).1.outline = m.outline := by
  apply Manager.run_outline
  intro op hop
  cases r <;> simp only [Request.operations, List.mem_cons, List.not_mem_nil, or_false] at hop
  · rcases hop with rfl | rfl | rfl <;> rfl
  · rcases hop with rfl | rfl <;> rfl
  · rw [hop]
    rfl
  · rw [hop]
    rfl

theorem ask_views (m : Model) (r : Request) : (m.ask r).1.views = m.views := by
  have ho := m.ask_outline r
  simp only [outline, Prod.mk.injEq] at ho
  rw [views, ho.2.1, views]

end Model

/-- On one comm, of frames that are all closes, there are as many closes as it is closed. -/
theorem framesOn_closes {frames : List Frame} (h : ∀ f ∈ frames, ∃ c, f = .close c) (comm : CommId) :
    framesOn comm frames = List.replicate (frames.count (.close comm)) (.close comm) := by
  have heq : framesOn comm frames = frames.filter (· == .close comm) := by
    apply List.filter_congr
    intro f hf
    obtain ⟨c, rfl⟩ := h f hf
    by_cases hc : c = comm <;> simp [Frame.comm, hc]
  rw [heq, List.filter_beq]

namespace Manager

/-- What becomes of the model of a comm in an operation, with the frames sent on the comm. -/
inductive Fate (m : Manager) (op : Operation) (comm : CommId) :
    Option Model → Option Model → List Frame → Prop
  | absent : Fate m op comm none none []
  | opened {request : CommOpen} {opened : Manager} {first : Model} (hop : op = .openComm request)
      (hc : request.comm = comm) (ho : m.openComm request = .ok opened)
      (hf : opened.models.get? comm = some first) : Fate m op comm none (some first) []
  | asked {model : Model} {r : Request} (hr : m.requestOn comm op = some r) :
      Fate m op comm (some model) (some (model.ask r).1) (model.ask r).2
  /-- Views may come and go, but never the last one, and one that is displayed comes. -/
  | kept {model model' : Model} (hr : m.requestOn comm op = none) (hs : model'.content = model.content)
      (hv : model.views ≠ [] → ∃ view ∈ model.views, view ∈ model'.views)
      (hd : m.displayed? op = some comm → model'.views ≠ []) :
      Fate m op comm (some model) (some model') []
  /-- The last view goes. -/
  | exhausted {model : Model} (hop : op ≠ .closeComm comm) (hv : model.views ≠ [])
      (hgone : ∀ view ∈ model.views, (m.step op).manager.views.get? view = none) :
      Fate m op comm (some model) none [.close comm]
  /-- The backend closes the comm. -/
  | ended {model : Model} (hop : op = .closeComm comm) : Fate m op comm (some model) none []

variable {m : Manager} {op : Operation} {comm : CommId}

/-! ### Untouched comms -/

theorem requestOn_of_none (h : m.request op = none) : m.requestOn comm op = none := by
  rw [requestOn, h]
  rfl

theorem requestOn_self {r : Request} (h : m.request op = some (comm, r)) :
    m.requestOn comm op = some r := by
  rw [requestOn, h]
  exact if_pos rfl

theorem requestOn_other {c : CommId} {r : Request} (h : m.request op = some (c, r)) (hc : c ≠ comm) :
    m.requestOn comm op = none := by
  rw [requestOn, h]
  exact if_neg hc

theorem request_of_requestOn {r : Request} (h : m.requestOn comm op = some r) :
    m.request op = some (comm, r) := by
  obtain ⟨⟨c, asked⟩, ha, hc⟩ := Option.bind_eq_some_iff.mp h
  by_cases he : c = comm
  · simp only [if_pos he] at hc
    rw [ha, he, Option.some.inj hc]
  · simp only [if_neg he] at hc
    contradiction

/-- Only a report on the comm itself asks its model to take note of one. -/
theorem status_of_requestOn {report : StatusMessage} (h : m.requestOn comm op = some (.status report)) :
    op = .status comm report := by
  have ha := request_of_requestOn h
  cases op with
  | status c report' =>
    obtain ⟨_, _, hr⟩ := Option.map_eq_some_iff.mp ha
    simp only [Prod.mk.injEq, Request.status.injEq] at hr
    rw [hr.1, hr.2]
  | message message =>
    simp only [request] at ha
    split at ha
    · contradiction
    · contradiction
    · simp at ha
  | change view changes =>
    simp only [request] at ha
    split at ha <;> simp at ha
  | ui view event =>
    simp only [request] at ha
    split at ha
    · split at ha <;> simp at ha
    · contradiction
  | sendCustom view content =>
    simp only [request] at ha
    split at ha <;> simp at ha
  | _ => simp [request] at ha

theorem requestOn_status {model : Model} (hm : m.models.get? comm = some model) (report : StatusMessage) :
    m.requestOn comm (.status comm report) = some (.status report) := by
  apply requestOn_self
  rw [request, hm]
  rfl

/-- Nothing is both asked and displayed. -/
theorem displayed?_of_request {asked : CommId × Request} (h : m.request op = some asked) :
    m.displayed? op = none := by
  cases op with
  | message message =>
    simp only [request] at h
    split at h
    · contradiction
    · contradiction
    · next hj => simp [displayed?, displayOf, hj]
  | display => simp [request] at h
  | _ => rfl

/-- An operation that does not touch the model of a comm. -/
theorem Fate.same (hr : m.requestOn comm op = none) (hd : m.displayed? op ≠ some comm) :
    Fate m op comm (m.models.get? comm) (m.models.get? comm) [] := by
  cases hm : m.models.get? comm with
  | none => exact .absent
  | some model =>
    refine .kept hr rfl (fun hne => ?_) fun h => absurd h hd
    obtain ⟨view, hv⟩ := List.exists_mem_of_ne_nil model.views hne
    exact ⟨view, hv, hv⟩

/-! ### Opening, asking and displaying -/

theorem fate_openComm (m : Manager) (request : CommOpen) (comm : CommId) :
    Fate m (.openComm request) comm (m.models.get? comm)
      ((m.step (.openComm request)).manager.models.get? comm)
      (framesOn comm (m.step (.openComm request)).frames) := by
  have hsame : Fate m (.openComm request) comm (m.models.get? comm) (m.models.get? comm) [] :=
    .same rfl (Option.some_ne_none comm).symm
  cases ho : m.openComm request with
  | error e =>
    rw [step, ho]
    exact hsame
  | ok opened =>
    rw [step, ho]
    obtain ⟨hdead, kind, he⟩ := openComm_ok ho
    by_cases hc : request.comm = comm
    · have hfirst : opened.models.get? comm =
          some ((kind.model (m.hub.comm request.comm)).withThrottle m.throttle) := by
        rw [he, setModel, OrdMap.get?_insert_eq, if_pos hc]
      rw [← hc, hdead, hc]
      show Fate m _ comm none (opened.models.get? comm) []
      rw [hfirst]
      exact .opened rfl hc ho hfirst
    · have hother : opened.models.get? comm = m.models.get? comm := by
        rw [he, setModel, OrdMap.get?_insert_eq, if_neg hc]
      show Fate m _ comm _ (opened.models.get? comm) []
      rw [hother]
      exact hsame

theorem Consistent.fate_asks (h : m.Consistent) {c : CommId} {r : Request} {model : Model}
    (hr : m.request op = some (c, r)) (ha : m.Asks op c r model) :
    Fate m op comm (m.models.get? comm) ((m.step op).manager.models.get? comm)
      (framesOn comm (m.step op).frames) := by
  have hid : model.id = c := by
    rw [Model.id, h.opened c model ha.live]
    rfl
  have hcomm : ∀ f ∈ (m.step op).frames, f.comm = c := by
    intro f hf
    rw [ha.frames] at hf
    obtain ⟨data, callbacks, rfl⟩ := Model.message_of_mem_ask hf
    exact hid
  rw [ha.models, OrdMap.get?_insert_eq]
  by_cases hc : c = comm
  · subst hc
    rw [if_pos rfl, ha.live, framesOn_self hcomm, ha.frames]
    exact .asked (requestOn_self hr)
  · rw [if_neg hc, framesOn_other fun f hf he => hc ((hcomm f hf).symm.trans he)]
    apply Fate.same (requestOn_other hr hc)
    rw [displayed?_of_request hr]
    exact (Option.some_ne_none comm).symm

theorem fate_displays {c : CommId} {group : GroupKey} {ids : List ViewId}
    (hd : m.Displays op c group ids) :
    Fate m op comm (m.models.get? comm) ((m.step op).manager.models.get? comm)
      (framesOn comm (m.step op).frames) := by
  have hr : m.requestOn comm op = none := requestOn_of_none hd.request
  rw [hd.models, hd.frames]
  by_cases hc : c = comm
  · rw [if_pos hc]
    cases hm : m.models.get? comm with
    | none => exact .absent
    | some model =>
      have hmem {x : ViewId} (hx : x ∈ model.views ∨ x ∈ ids) : x ∈ (model.enrollAll group ids).views :=
        Model.mem_views_enrollAll.mpr hx
      refine .kept hr (model.content_enrollAll group ids) (fun hne => ?_) fun _ => ?_
      · obtain ⟨view, hv⟩ := List.exists_mem_of_ne_nil model.views hne
        exact ⟨view, hv, hmem (.inl hv)⟩
      · obtain ⟨view, hv⟩ := List.exists_mem_of_ne_nil ids hd.some_view
        exact List.ne_nil_of_mem (hmem (.inr hv))
  · rw [if_neg hc]
    apply Fate.same hr
    rw [hd.displayed]
    exact fun he => hc (Option.some.inj he)

/-! ### Taking down -/

/-- What a walk makes of a model that did not go ahead of it. -/
theorem Fate.settled {walk : List ViewId} {models after : Models} {frames : List Frame}
    (hs : Models.Settled models walk after frames) (hf : ∀ f ∈ frames, ∃ c, f = .close c)
    (hm : models.get? comm = m.models.get? comm) (hr : m.request op = none)
    (hd : m.displayed? op = none) (hop : op ≠ .closeComm comm)
    (hgone : ∀ x ∈ walk, (m.step op).manager.views.get? x = none) :
    Fate m op comm (m.models.get? comm) (after.get? comm) (framesOn comm frames) := by
  rw [framesOn_closes hf]
  cases hlive : m.models.get? comm with
  | none =>
    obtain ⟨ha, hcount⟩ := hs.dead comm (hm.trans hlive)
    rw [ha, hcount]
    exact .absent
  | some model =>
    by_cases hall : model.views ≠ [] ∧ model.views ⊆ walk
    · obtain ⟨ha, hcount⟩ := hs.dropped comm model (hm.trans hlive) hall.1 hall.2
      rw [ha, hcount]
      exact .exhausted hop hall.1 fun view hv => hgone view (hall.2 hv)
    · obtain ⟨⟨model', ha, hout⟩, hcount⟩ := hs.kept comm model (hm.trans hlive) hall
      rw [ha, hcount]
      refine .kept (requestOn_of_none hr) hout.content (fun hne => ?_) fun h => ?_
      · -- Some view is off the walk, for the walk has not all of them.
        have hsome : ∃ view ∈ model.views, view ∉ walk := by
          by_contra hno
          push Not at hno
          exact hall ⟨hne, hno⟩
        obtain ⟨view, hv, hoff⟩ := hsome
        exact ⟨view, hv, hout.mem_views.mpr ⟨hv, hoff⟩⟩
      · rw [hd] at h
        contradiction

theorem Consistent.fate_removeView (h : m.Consistent) (id : ViewId) (comm : CommId) :
    Fate m (.removeView id) comm (m.models.get? comm)
      ((m.step (.removeView id)).manager.models.get? comm)
      (framesOn comm (m.step (.removeView id)).frames) := by
  let walk := m.views.subtree id
  have hn : walk.Nodup := h.forest.subtree_nodup id
  have hsettled := h.attended.settled hn
  have hstep : m.step (.removeView id) =
      ⟨(m.takeDown walk).1, (m.takeDown walk).2, .ok (.removed (m.views.contains id))⟩ := by
    rw [Manager.step, removeView_eq h.forest]
  have hgone : ∀ x ∈ walk, (m.step (.removeView id)).manager.views.get? x = none := by
    intro x hx
    rw [hstep]
    show (m.views.without walk).get? x = none
    rw [Arena.get?_without, if_pos hx]
  have hop : Operation.removeView id ≠ .closeComm comm := Operation.noConfusion
  have hfate := Fate.settled hsettled (fun f hf => Models.mem_closings hf) rfl rfl rfl hop hgone
  rw [← takeDown_frames h.attended hn] at hfate
  rw [hstep]
  exact hfate

theorem Consistent.fate_closeComm (h : m.Consistent) (c comm : CommId) :
    Fate m (.closeComm c) comm (m.models.get? comm)
      ((m.step (.closeComm c)).manager.models.get? comm)
      (framesOn comm (m.step (.closeComm c)).frames) := by
  cases hclosed : m.models.get? c with
  | none =>
    rw [Manager.step, closeComm_of_dead hclosed]
    exact .same rfl (Option.some_ne_none comm).symm
  | some closed =>
    let walk := m.views.sweep closed.views
    let others : Manager := { m with models := m.models.erase c }
    have hn : walk.Nodup := h.forest.sweep_nodup _
    have hall : closed.views ⊆ walk := h.views_subset_sweep hclosed
    have ha : Models.Attended m.views.owner others.models :=
      h.attended_of_spared (h.spared_erase hclosed hall)
    have hsettled := ha.settled hn
    have hstep : m.step (.closeComm c) =
        ⟨(others.takeDown walk).1, (others.takeDown walk).2, .ok .done⟩ := by
      rw [Manager.step, closeComm_of_live h.forest hclosed]
    have hframes : (others.takeDown walk).2 =
        Models.closings m.views.owner others.models [] walk := takeDown_frames ha hn
    by_cases hc : c = comm
    · -- The backend's own close: the model is gone before the walk begins.
      subst hc
      have hdead : others.models.get? c = none := by
        show (m.models.erase c).get? c = none
        rw [OrdMap.get?_erase, if_pos rfl]
      obtain ⟨hafter, hcount⟩ := hsettled.dead c hdead
      rw [hclosed, hstep, hframes, framesOn_closes fun f hf => Models.mem_closings hf, hcount]
      show Fate m _ c _ ((others.takeDown walk).1.models.get? c) []
      have hgone : (others.takeDown walk).1.models.get? c = none := hafter
      rw [hgone]
      exact .ended rfl
    · have hother : others.models.get? comm = m.models.get? comm := by
        show (m.models.erase c).get? comm = _
        rw [OrdMap.get?_erase, if_neg hc]
      have hgone : ∀ x ∈ walk, (m.step (.closeComm c)).manager.views.get? x = none := by
        intro x hx
        rw [hstep]
        show (m.views.without walk).get? x = none
        rw [Arena.get?_without, if_pos hx]
      have hop : Operation.closeComm c ≠ .closeComm comm := fun he => hc (Operation.closeComm.inj he)
      have hfate := Fate.settled hsettled (fun f hf => Models.mem_closings hf) hother rfl rfl hop hgone
      rw [← hframes] at hfate
      rw [hstep]
      exact hfate

/-! ### Every operation -/

theorem Consistent.fate (h : m.Consistent) (op : Operation) (comm : CommId) :
    Fate m op comm (m.models.get? comm) ((m.step op).manager.models.get? comm)
      (framesOn comm (m.step op).frames) := by
  by_cases ho : ∃ request, op = .openComm request
  · obtain ⟨request, rfl⟩ := ho
    exact m.fate_openComm request comm
  by_cases hr : ∃ id, op = .removeView id
  · obtain ⟨id, rfl⟩ := hr
    exact h.fate_removeView id comm
  by_cases hc : ∃ c, op = .closeComm c
  · obtain ⟨c, rfl⟩ := hc
    exact h.fate_closeComm c comm
  push Not at ho hr hc
  cases routine_of_ne ho hr hc with
  | asks hr ha => exact h.fate_asks hr ha
  | displays hd => exact fate_displays hd
  | quiet hq =>
    rw [hq.models, hq.frames]
    apply Fate.same (requestOn_of_none hq.request)
    rw [hq.displayed]
    exact (Option.some_ne_none comm).symm

end Manager

end WidgetSync
