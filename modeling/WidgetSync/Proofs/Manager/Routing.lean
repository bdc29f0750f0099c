import WidgetSync.Proofs.Manager.Protocol

/-! Where output goes. The view that spoke last on a comm decides it, for as long as the view is live: while a view is
registered a model remembers that it was the last to speak, and every message carries the group of that view. -/
namespace WidgetSync

/-- The view that makes a request. -/
def Request.speaker : Request → Option ViewId
  | .change view _ => some view
  | .custom view _ => some view
  | .remote _ => none
  | .status _ => none

namespace Model

theorem lastModified_ask (m : Model) (r : Request) :
    (m.ask r).1.lastModified = r.speaker.or m.lastModified := by
  cases r with
  | change view changes =>
    rw [ask_change]
    rcases ((m.setLastModified view).set changes).requestSync_cases changes true with
      he | ⟨_, he⟩ | ⟨_, he⟩ <;> rw [he] <;> rfl
  | custom view content =>
    rw [ask_custom]
    rfl
  | remote state =>
    rw [ask_remote]
    simp only [applyRemote, mergeRemote]
    split <;> rfl
  | status report =>
    rw [ask_status, handleStatus]
    split
    · rcases m.onIdle_cases with ⟨_, he⟩ | ⟨_, _, _, he⟩ <;> rw [he] <;> rfl
    · rfl
    · rfl

theorem outputGroup_congr {m m' : Model} (hl : m'.lastModified = m.lastModified) (hg : m'.groups = m.groups) :
    m'.outputGroup = m.outputGroup := by
  have hgroup : m'.groupOf? = m.groupOf? := by
    funext view
    rw [groupOf?, groupOf?, hg]
  rw [outputGroup, outputGroup, hl, hgroup]

/-- What is sent carries the group that the model stands at when the request is done. -/
theorem output_of_mem_ask {m : Model} {r : Request} {comm : CommId} {data : SyncMessage} {callbacks : Callbacks}
    (hf : .message comm data callbacks ∈ (m.ask r).2) : callbacks.output = (m.ask r).1.outputGroup := by
  cases r with
  | change view changes =>
    rw [ask_change] at hf ⊢
    -- Only the slots and what waits differ between the model that sends and the model afterwards.
    rcases ((m.setLastModified view).set changes).requestSync_cases changes true with
      he | ⟨_, he⟩ | ⟨_, he⟩ <;> rw [he] at hf ⊢
    · contradiction
    · contradiction
    · obtain ⟨_, _, rfl⟩ := Frame.message.inj (List.mem_singleton.mp hf)
      rfl
  | custom view content =>
    rw [ask_custom] at hf ⊢
    cases hd : (m.setLastModified view).comm.delivers with
    | false =>
      rw [sendCustom_of_not_delivers hd] at hf
      contradiction
    | true =>
      rw [sendCustom_of_delivers hd] at hf
      obtain ⟨_, _, rfl⟩ := Frame.message.inj (List.mem_singleton.mp hf)
      rfl
  | remote state =>
    rw [ask_remote] at hf
    contradiction
  | status report =>
    have hlast := m.lastModified_ask (.status report)
    have houtline := m.ask_outline (.status report)
    have hsame : (m.ask (.status report)).1.outputGroup = m.outputGroup :=
      outputGroup_congr hlast (Prod.mk.inj (Prod.mk.inj houtline).2).1
    rw [hsame]
    rw [ask_status] at hf
    by_cases hi : report.state = .idle
    · have he : m.handleStatus report = m.onIdle := by rw [handleStatus, hi]
      rw [he] at hf
      rcases m.onIdle_frames with hn | ⟨waiting, _, hs⟩
      · rw [hn] at hf
        contradiction
      · rw [hs] at hf
        obtain ⟨_, _, rfl⟩ := Frame.message.inj (List.mem_singleton.mp hf)
        rfl
    · rw [handleStatus_of_ne_idle hi] at hf
      contradiction

theorem lastModified_enrollAll (m : Model) (group : GroupKey) (ids : List ViewId) :
    (m.enrollAll group ids).lastModified = m.lastModified := by
  induction ids generalizing m with
  | nil => rfl
  | cons id rest ih =>
    have hfirst : (m.enroll group id).lastModified = m.lastModified := by
      rw [enroll, subscribe_eq]
      rfl
    exact (ih (m.enroll group id)).trans hfirst

/-- The view that a model remembers is one of its own. -/
def Remembers (m : Model) : Prop := ∀ view, m.lastModified = some view → view ∈ m.views

theorem lastModified_leave {m : Model} (hr : m.Remembers) (id view : ViewId) :
    (m.leave id).lastModified = some view ↔ m.lastModified = some view ∧ view ≠ id := by
  have hgroup : (m.unsubscribe id).groupOf? id = m.groupOf? id := rfl
  simp only [leave, removeView, hgroup]
  cases hg : m.groupOf? id with
  | none =>
    -- A view that is not registered is not remembered.
    have hnot : id ∉ m.views := groupOf?_eq_none_iff.mp hg
    constructor
    · intro hl
      exact ⟨hl, fun he => hnot (he ▸ hr view hl)⟩
    · exact fun h => h.1
  | some group =>
    show (if m.lastModified = some id then none else m.lastModified) = some view ↔ _
    by_cases hid : m.lastModified = some id
    · rw [if_pos hid, hid]
      constructor
      · intro hnone
        contradiction
      · rintro ⟨he, hne⟩
        exact absurd (Option.some.inj he).symm hne
    · rw [if_neg hid]
      constructor
      · intro hl
        exact ⟨hl, fun he => hid (he ▸ hl)⟩
      · exact fun h => h.1

theorem lastModified_leaveAll {m : Model} (ht : m.Tidy) (hr : m.Remembers) (gone : List ViewId) (view : ViewId) :
    (m.leaveAll gone).lastModified = some view ↔ m.lastModified = some view ∧ view ∉ gone := by
  induction gone generalizing m with
  | nil => simp [leaveAll]
  | cons id rest ih =>
    have hnext : (m.leave id).Remembers := by
      intro x hx
      obtain ⟨hl, hne⟩ := (lastModified_leave hr id x).mp hx
      exact (mem_views_leave ht.views_nodup).mpr ⟨hr x hl, hne⟩
    calc (m.leaveAll (id :: rest)).lastModified = some view
        ↔ (m.leave id).lastModified = some view ∧ view ∉ rest := ih (ht.leave id) hnext
      _ ↔ (m.lastModified = some view ∧ view ≠ id) ∧ view ∉ rest := by rw [lastModified_leave hr]
      _ ↔ m.lastModified = some view ∧ view ∉ id :: rest := by rw [List.mem_cons, not_or, and_assoc]

end Model

namespace Manager

/-! ### Who spoke last -/

/-- The view through which an operation makes a change on a comm, or sends data on it. -/
def speaker (m : Manager) (comm : CommId) : Operation → Option ViewId
  | .change view _ => if m.views.owner view = some comm then some view else none
  | .sendCustom view _ => if m.views.owner view = some comm then some view else none
  | .ui view event =>
    match m.modelOf view with
    | .ok (v, model) => if v.model = comm ∧ (v.handleEvent event model).2.isSome then some view else none
    | .error _ => none
  | _ => none

/-- The last actor of a comm after operations, if `actor` was the last one before: the view that spoke last since the
comm was opened. -/
def lastActor (m : Manager) (comm : CommId) (actor : Option ViewId) : List Operation → Option ViewId
  | [] => actor
  | op :: rest =>
    let next := if (m.step op).reply = .ok (.opened comm) then none else (m.speaker comm op).or actor
    (m.step op).manager.lastActor comm next rest

variable {m : Manager} {op : Operation} {comm : CommId} {model : Model}

/-- What the backend says comes from no view. -/
theorem speaker_of_requestOn_eq_none (hr : ∀ c r, m.request op = some (c, r) → r.speaker = none) :
    (m.requestOn comm op).bind Request.speaker = none := by
  cases ho : m.requestOn comm op with
  | none => rfl
  | some r => exact hr comm r (request_of_requestOn ho)

theorem Consistent.speaker_eq (h : m.Consistent) (comm : CommId) (op : Operation) :
    m.speaker comm op = (m.requestOn comm op).bind Request.speaker := by
  have howned (view : ViewId) : (m.views.owner view = none ∧ ∃ e, m.modelOf view = .error e) ∨
      ∃ v model, m.views.owner view = some v.model ∧ m.modelOf view = .ok (v, model) := by
    rcases h.modelOf_cases view with ⟨v, model, hf⟩ | ⟨hd, hf⟩
    · obtain ⟨slot, hs, rfl, _⟩ := modelOf_ok hf
      exact .inr ⟨slot.view, model, by rw [Arena.owner, hs]; rfl, hf⟩
    · exact .inl ⟨by rw [Arena.owner, hd]; rfl, _, hf⟩
  cases op with
  | change view changes =>
    rcases howned view with ⟨ho, e, hf⟩ | ⟨v, model, ho, hf⟩
    · simp [speaker, requestOn, request, ho, hf]
    · by_cases hc : v.model = comm <;> simp [speaker, requestOn, request, ho, hf, hc, Request.speaker]
  | sendCustom view content =>
    rcases howned view with ⟨ho, e, hf⟩ | ⟨v, model, ho, hf⟩
    · simp [speaker, requestOn, request, ho, hf]
    · by_cases hc : v.model = comm <;> simp [speaker, requestOn, request, ho, hf, hc, Request.speaker]
  | ui view event =>
    rcases howned view with ⟨_, e, hf⟩ | ⟨v, model, _, hf⟩
    · simp [speaker, requestOn, request, hf]
    · rcases hi : (v.handleEvent event model).2 with _ | changes | content <;>
        by_cases hc : v.model = comm <;> simp [speaker, requestOn, request, hf, hi, hc, Request.speaker]
  | message message =>
    refine (speaker_of_requestOn_eq_none fun c r hr => ?_).symm
    simp only [request] at hr
    split at hr
    · contradiction
    · contradiction
    · obtain ⟨_, _, he⟩ := Option.map_eq_some_iff.mp hr
      rw [← (Prod.mk.inj he).2, Request.speaker]
  | update c state =>
    refine (speaker_of_requestOn_eq_none fun c' r hr => ?_).symm
    obtain ⟨_, _, he⟩ := Option.map_eq_some_iff.mp hr
    rw [← (Prod.mk.inj he).2, Request.speaker]
  | status c report =>
    refine (speaker_of_requestOn_eq_none fun c' r hr => ?_).symm
    obtain ⟨_, _, he⟩ := Option.map_eq_some_iff.mp hr
    rw [← (Prod.mk.inj he).2, Request.speaker]
  | _ => rfl

/-! ### What one operation makes of a model -/

/-- A model that lives on has been asked something, or got views, or lost views that are gone. -/
inductive Turnover (m : Manager) (op : Operation) (comm : CommId) (model : Model) : Model → Prop
  | asked {r : Request} (hr : m.requestOn comm op = some r) : Turnover m op comm model (model.ask r).1
  | joined (hr : m.requestOn comm op = none) (group : GroupKey) (ids : List ViewId) :
      Turnover m op comm model (model.enrollAll group ids)
  | left (hr : m.requestOn comm op = none) {gone : List ViewId}
      (hgone : ∀ view ∈ gone, (m.step op).manager.views.get? view = none) :
      Turnover m op comm model (model.leaveAll gone)

theorem Turnover.same (hr : m.requestOn comm op = none) : Turnover m op comm model model := by
  have hnone : ∀ view ∈ ([] : List ViewId), (m.step op).manager.views.get? view = none := nofun
  exact .left hr hnone

/-- The same for a walk that takes views down, on which no other model goes first. -/
theorem Consistent.turnover_takeDown (h : m.Consistent) {walk : List ViewId} {models : Models} {model' : Model}
    (hr : m.requestOn comm op = none) (hsp : Spared m walk models) (hn : walk.Nodup)
    (hstep : (m.step op).manager = (Manager.takeDown { m with models } walk).1)
    (hm : m.models.get? comm = some model) (hm' : (m.step op).manager.models.get? comm = some model') :
    Turnover m op comm model model' := by
  have hgone : ∀ view ∈ walk, (m.step op).manager.views.get? view = none := by
    intro view hv
    rw [hstep]
    show (m.views.without walk).get? view = none
    rw [Arena.get?_without, if_pos hv]
  rw [hstep] at hm'
  obtain ⟨before, hb, rfl⟩ := h.model_of_departures hsp hn hm'
  obtain rfl : before = model := Option.some.inj (hb.symm.trans hm)
  exact .left hr fun view hv => hgone view (Models.mem_ownOn.mp hv).1

theorem Consistent.turnover (h : m.Consistent) (op : Operation) {model' : Model}
    (hm : m.models.get? comm = some model) (hm' : (m.step op).manager.models.get? comm = some model') :
    Turnover m op comm model model' := by
  have hsame (hr : m.requestOn comm op = none)
      (he : (m.step op).manager.models.get? comm = m.models.get? comm) : Turnover m op comm model model' := by
    obtain rfl : model' = model := Option.some.inj (hm'.symm.trans (he.trans hm))
    exact .same hr
  by_cases ho : ∃ request, op = .openComm request
  · -- Another comm opens, if any does.
    obtain ⟨request, rfl⟩ := ho
    apply hsame rfl
    cases hopen : m.openComm request with
    | error e =>
      rw [Manager.step, hopen]
      rfl
    | ok opened =>
      obtain ⟨hdead, kind, he⟩ := openComm_ok hopen
      rw [Manager.step, hopen]
      show opened.models.get? comm = _
      rw [he, setModel, OrdMap.get?_insert_eq, if_neg (OrdMap.ne_of_get? hdead hm)]
  by_cases hv : ∃ id, op = .removeView id
  · obtain ⟨id, rfl⟩ := hv
    refine h.turnover_takeDown rfl (spared_self m _) (h.forest.subtree_nodup id) ?_ hm hm'
    rw [Manager.step, removeView_eq h.forest]
  by_cases hc : ∃ c, op = .closeComm c
  · obtain ⟨c, rfl⟩ := hc
    cases hclosed : m.models.get? c with
    | none =>
      apply hsame rfl
      rw [Manager.step, closeComm_of_dead hclosed]
    | some closed =>
      have hsub : closed.views ⊆ m.views.sweep closed.views := h.views_subset_sweep hclosed
      refine h.turnover_takeDown rfl (h.spared_erase hclosed hsub) (h.forest.sweep_nodup _) ?_ hm hm'
      rw [Manager.step, closeComm_of_live h.forest hclosed]
  push Not at ho hv hc
  have hroutine : m.Routine op := routine_of_ne ho hv hc
  cases hroutine with
  | @asks c r asked hr ha =>
    by_cases he : c = comm
    · subst he
      obtain rfl : asked = model := Option.some.inj (ha.live.symm.trans hm)
      rw [ha.models, OrdMap.get?_insert_eq, if_pos rfl] at hm'
      rw [← Option.some.inj hm']
      exact .asked (requestOn_self hr)
    · apply hsame (requestOn_other hr he)
      rw [ha.models, OrdMap.get?_insert_eq, if_neg he]
  | @displays c group ids hd =>
    have hr : m.requestOn comm op = none := requestOn_of_none hd.request
    by_cases he : c = comm
    · rw [hd.models, if_pos he, hm, Option.map_some] at hm'
      rw [← Option.some.inj hm']
      exact .joined hr group ids
    · apply hsame hr
      rw [hd.models, if_neg he]
  | quiet hq =>
    apply hsame (requestOn_of_none hq.request)
    rw [hq.models]

/-! ### The last actor is remembered while it is live -/

/-- A model remembers the last actor of its comm, if that is still one of its views. An actor that is not is gone. -/
structure Remembered (m : Manager) (actor : Option ViewId) (model : Model) : Prop where
  own_or_gone : ∀ view, actor = some view →
    view ∈ model.views ∨ (view.index < m.nextView ∧ m.views.get? view = none)
  lastModified : ∀ view, model.lastModified = some view ↔ actor = some view ∧ view ∈ model.views

/-- A model of the comm, if there is one, remembers the last actor. -/
def RememberedOn (m : Manager) (comm : CommId) (actor : Option ViewId) : Prop :=
  ∀ model, m.models.get? comm = some model → m.Remembered actor model

variable {actor : Option ViewId}

theorem Remembered.remembers (hr : m.Remembered actor model) : model.Remembers :=
  fun view hl => ((hr.lastModified view).mp hl).2

/-- A model that was asked nothing remembers the same actor, unless that is gone. -/
theorem Consistent.remembered_same (h : m.Consistent) {model' : Model} (hr : m.Remembered actor model)
    (hm : m.models.get? comm = some model) (hm' : (m.step op).manager.models.get? comm = some model')
    (hviews : ∀ view ∈ model.views, view ∈ model'.views ∨ (m.step op).manager.views.get? view = none)
    (hlast : ∀ view, model'.lastModified = some view ↔ model.lastModified = some view ∧ view ∈ model'.views) :
    (m.step op).manager.Remembered actor model' := by
  have hlater := h.later_step op
  have hold {view : ViewId} (hlt : view.index < m.nextView) : view.index < (m.step op).manager.nextView :=
    Nat.lt_of_lt_of_le hlt hlater.next_le
  refine ⟨fun view ha => ?_, fun view => ?_⟩
  · rcases hr.own_or_gone view ha with hown | ⟨hlt, hdead⟩
    · obtain ⟨slot, hs, _⟩ := h.known comm model view hm hown
      exact (hviews view hown).imp_right fun hd => ⟨hold (h.below_next view slot hs), hd⟩
    · exact .inr ⟨hold hlt, hlater.dead view hlt hdead⟩
  · rw [hlast, hr.lastModified]
    constructor
    · rintro ⟨⟨ha, _⟩, hv⟩
      exact ⟨ha, hv⟩
    · rintro ⟨ha, hv⟩
      rcases hr.own_or_gone view ha with hown | ⟨hlt, hdead⟩
      · exact ⟨⟨ha, hown⟩, hv⟩
      · -- Who is gone does not come back as a view of the model.
        exact absurd hv ((h.step op).not_listed_of_dead (hlater.dead view hlt hdead) hm')

theorem owner_of_speaker {view : ViewId} (hs : m.speaker comm op = some view) : m.views.owner view = some comm := by
  cases op with
  | change v changes =>
    obtain ⟨ho, he⟩ := Option.ite_none_right_eq_some.mp hs
    exact Option.some.inj he ▸ ho
  | sendCustom v content =>
    obtain ⟨ho, he⟩ := Option.ite_none_right_eq_some.mp hs
    exact Option.some.inj he ▸ ho
  | ui v event =>
    simp only [speaker] at hs
    split at hs
    · next found model hf =>
      obtain ⟨⟨hc, _⟩, he⟩ := Option.ite_none_right_eq_some.mp hs
      obtain ⟨slot, hslot, rfl, _⟩ := modelOf_ok hf
      rw [← Option.some.inj he, Arena.owner, hslot, ← hc]
      rfl
    · contradiction
  | _ => contradiction

theorem Consistent.remembered_turnover (h : m.Consistent) {model' : Model} (hr : m.Remembered actor model)
    (hm : m.models.get? comm = some model) (hm' : (m.step op).manager.models.get? comm = some model') :
    (m.step op).manager.Remembered ((m.speaker comm op).or actor) model' := by
  have ht := h.turnover op hm hm'
  cases ht with
  | @asked r ho =>
    have hviews : (model.ask r).1.views = model.views := model.ask_views r
    have hspeaker : m.speaker comm op = r.speaker := by rw [h.speaker_eq, ho, Option.bind_some]
    have hlast : (model.ask r).1.lastModified = r.speaker.or model.lastModified := model.lastModified_ask r
    cases hs : r.speaker with
    | none =>
      rw [hspeaker, hs, Option.none_or]
      rw [hs, Option.none_or] at hlast
      refine h.remembered_same hr hm hm' (fun view hv => .inl (hviews ▸ hv)) fun view => ?_
      rw [hlast, hviews]
      exact ⟨fun hl => ⟨hl, hr.remembers view hl⟩, fun hl => hl.1⟩
    | some speaker =>
      -- The speaker is a view of the model, and the model has just heard it.
      have hown : speaker ∈ model.views := (h.owns hm speaker).mp (owner_of_speaker (hspeaker.trans hs))
      rw [hspeaker, hs, Option.some_or]
      rw [hs, Option.some_or] at hlast
      refine ⟨fun view ha => .inl ?_, fun view => ?_⟩
      · rw [hviews, ← Option.some.inj ha]
        exact hown
      · rw [hlast, hviews]
        exact ⟨fun ha => ⟨ha, Option.some.inj ha ▸ hown⟩, fun ha => ha.1⟩
  | joined ho group ids =>
    have hkept {view : ViewId} (hv : view ∈ model.views) : view ∈ (model.enrollAll group ids).views :=
      Model.mem_views_enrollAll.mpr (.inl hv)
    rw [h.speaker_eq, ho, Option.bind_none, Option.none_or]
    refine h.remembered_same hr hm hm' (fun view hv => .inl (hkept hv)) fun view => ?_
    rw [model.lastModified_enrollAll]
    exact ⟨fun hl => ⟨hl, hkept (hr.remembers view hl)⟩, fun hl => hl.1⟩
  | @left ho gone hgone =>
    have htidy := h.tidy comm model hm
    rw [h.speaker_eq, ho, Option.bind_none, Option.none_or]
    refine h.remembered_same hr hm hm' (fun view hv => ?_) fun view => ?_
    · by_cases hg : view ∈ gone
      · exact .inr (hgone view hg)
      · exact .inl ((Model.mem_views_leaveAll htidy).mpr ⟨hv, hg⟩)
    · rw [Model.lastModified_leaveAll htidy hr.remembers, Model.mem_views_leaveAll htidy]
      exact ⟨fun ⟨hl, hg⟩ => ⟨hl, hr.remembers view hl, hg⟩, fun ⟨hl, _, hg⟩ => ⟨hl, hg⟩⟩

theorem Consistent.rememberedOn_step (h : m.Consistent) (hr : m.RememberedOn comm actor) (op : Operation) :
    (m.step op).manager.RememberedOn comm
      (if (m.step op).reply = .ok (.opened comm) then none else (m.speaker comm op).or actor) := by
  intro model' hm'
  have hlive : (m.step op).manager.models.contains comm = true := OrdMap.contains_iff.mpr ⟨model', hm'⟩
  cases hm : m.models.get? comm with
  | some model =>
    rw [if_neg]
    · exact h.remembered_turnover (hr model hm) hm hm'
    · rw [h.reply_opened_iff, hm]
      rintro ⟨hnone, _⟩
      contradiction
  | none =>
    -- A new model has heard nobody.
    have hreply := (h.reply_opened_iff op comm).mpr ⟨hm, hlive⟩
    obtain ⟨request, opened, rfl, rfl, ho⟩ := openComm_of_reply hreply
    obtain ⟨_, kind, he⟩ := openComm_ok ho
    rw [if_pos hreply]
    rw [Manager.step, ho] at hm'
    change opened.models.get? request.comm = some model' at hm'
    rw [he, setModel, OrdMap.get?_insert_eq, if_pos rfl] at hm'
    rw [← Option.some.inj hm']
    constructor
    · intro view hnone
      contradiction
    · intro view
      constructor
      · intro hnone
        contradiction
      · rintro ⟨hnone, _⟩
        contradiction

theorem Consistent.rememberedOn_run (h : m.Consistent) (hr : m.RememberedOn comm actor) (ops : List Operation) :
    (m.run ops).1.RememberedOn comm (m.lastActor comm actor ops) := by
  induction ops generalizing m actor with
  | nil => exact hr
  | cons op rest ih =>
    rw [run_cons, lastActor]
    exact ih (h.step op) (h.rememberedOn_step hr op)

/-! ### Routing -/

/-- The group of a live view. -/
def groupOf? (m : Manager) (view : ViewId) : Option GroupKey := (m.views.get? view).map (·.view.group)

theorem Consistent.outputGroup_eq (h : m.Consistent) (hm : m.models.get? comm = some model)
    (hr : m.Remembered actor model) : model.outputGroup = actor.bind m.groupOf? := by
  cases hl : model.lastModified with
  | some view =>
    obtain ⟨rfl, hown⟩ := (hr.lastModified view).mp hl
    obtain ⟨slot, hs, rfl⟩ := h.known comm model view hm hown
    rw [Model.outputGroup, hl, Option.bind_some, groupOf?, hs]
    exact h.groupOf?_eq hs hm
  | none =>
    rw [Model.outputGroup, hl]
    cases actor with
    | none => rfl
    | some view =>
      rcases hr.own_or_gone view rfl with hown | ⟨_, hdead⟩
      · have hlast := (hr.lastModified view).mpr ⟨rfl, hown⟩
        rw [hl] at hlast
        contradiction
      · rw [Option.bind_some, groupOf?, hdead]
        rfl

/-- A message is sent by a live model, and carries the group that the model stands at from then on. -/
theorem Consistent.output_of_message (h : m.Consistent) {data : SyncMessage} {callbacks : Callbacks}
    (hf : .message comm data callbacks ∈ (m.step op).frames) :
    ∃ model, (m.step op).manager.models.get? comm = some model ∧ callbacks.output = model.outputGroup := by
  have hon : .message comm data callbacks ∈ framesOn comm (m.step op).frames :=
    List.mem_filter.mpr ⟨hf, decide_eq_true rfl⟩
  have hfate := h.fate op comm
  generalize m.models.get? comm = before, (m.step op).manager.models.get? comm = after,
    framesOn comm (m.step op).frames = frames at hfate hon
  cases hfate with
  | absent => contradiction
  | opened => contradiction
  | @asked model r hr => exact ⟨_, rfl, Model.output_of_mem_ask hon⟩
  | kept => contradiction
  | exhausted => exact absurd (List.mem_singleton.mp hon) nofun
  | ended => contradiction

/-- Output is added to the cell that the model stands at, if there is such a cell. -/
theorem output_eq (hm : m.models.get? comm = some model) {index : Nat} (ho : model.outputGroup = some (.cell index))
    (text : String) : m.output comm text = { m with notebook := m.notebook.appendOutput index text } := by
  have hgroup : m.models.get? comm >>= Model.outputGroup = some (.cell index) := by
    rw [hm]
    exact ho
  rw [output, hgroup]

theorem output_of_nowhere (hno : ∀ model index, m.models.get? comm = some model →
      model.outputGroup = some (.cell index) → m.notebook.cells[index]? = none) (text : String) :
    m.output comm text = m := by
  cases hm : m.models.get? comm with
  | none => simp [output, hm]
  | some model =>
    cases ho : model.outputGroup with
    | none => simp [output, hm, ho]
    | some group =>
      cases group with
      | detached => simp [output, hm, ho]
      | cell index =>
        -- Behind the last cell there is nothing to add output to.
        have hlen : m.notebook.cells.length ≤ index := List.getElem?_eq_none_iff.mp (hno model index hm ho)
        have hcells : m.notebook.cells.modify index (·.appendOutput text) = m.notebook.cells :=
          List.modify_eq_self hlen
        rw [output_eq hm ho, Notebook.appendOutput, hcells]

theorem lastActor_append (m : Manager) (comm : CommId) (actor : Option ViewId) (ops more : List Operation) :
    m.lastActor comm actor (ops ++ more) = (m.run ops).1.lastActor comm (m.lastActor comm actor ops) more := by
  induction ops generalizing m actor with
  | nil => rfl
  | cons op rest ih =>
    rw [List.cons_append, lastActor, ih, run_cons, lastActor]

/-- In every state that operations reach from a new manager, and in every further operation: output goes where the last
actor of the comm is, while that is live. -/
theorem output_follows_last_actor (notebook : Notebook) (throttle : Nat) (ops : List Operation) :
    let start := new notebook throttle
    let m := (start.run ops).1
    -- A model stands at the group of the last actor, if that is live, and at none otherwise.
    (∀ comm model, m.models.get? comm = some model →
      model.outputGroup = (start.lastActor comm none ops).bind m.groupOf?) ∧
    -- A message carries the group that the model of its comm stands at, the sender's own group if a view sends it.
    (∀ op comm data callbacks, .message comm data callbacks ∈ (m.step op).frames →
      ∃ model, (m.step op).manager.models.get? comm = some model ∧ callbacks.output = model.outputGroup ∧
        callbacks.output = (start.lastActor comm none (ops ++ [op])).bind (m.step op).manager.groupOf?) ∧
    -- Output is added to that cell, if there is one, and goes nowhere otherwise.
    ∀ comm text,
      let outcome := m.step (.output comm text)
      outcome.frames = [] ∧
      (∀ model index cell, m.models.get? comm = some model → model.outputGroup = some (.cell index) →
        m.notebook.cells[index]? = some cell →
        outcome.manager = { m with notebook := { m.notebook with
          cells := m.notebook.cells.set index { cell with outputs := cell.outputs ++ [text] } } }) ∧
      ((∀ model index, m.models.get? comm = some model → model.outputGroup = some (.cell index) →
        m.notebook.cells[index]? = none) → outcome.manager = m) := by
  intro start m
  have h : m.Consistent := (new_consistent notebook throttle).run ops
  have hremembered (comm : CommId) : m.RememberedOn comm (start.lastActor comm none ops) := by
    have hstart : start.RememberedOn comm none := nofun
    exact (new_consistent notebook throttle).rememberedOn_run hstart ops
  refine ⟨fun comm model hm => h.outputGroup_eq hm (hremembered comm model hm), ?_, ?_⟩
  · intro op comm data callbacks hf
    obtain ⟨model, hm, ho⟩ := h.output_of_message hf
    have hnext := h.rememberedOn_step (hremembered comm) op model hm
    refine ⟨model, hm, ho, ?_⟩
    rw [ho, (h.step op).outputGroup_eq hm hnext, lastActor_append]
    rfl
  · intro comm text outcome
    refine ⟨rfl, fun model index cell hm ho hcell => ?_, fun hno => output_of_nowhere hno text⟩
    have hcells : m.notebook.cells.modify index (·.appendOutput text) =
        m.notebook.cells.set index (cell.appendOutput text) := by
      rw [List.modify_eq_set_getElem?, hcell]
      rfl
    show m.output comm text = _
    rw [output_eq hm ho, Notebook.appendOutput, hcells]
    rfl

/-- When the last actor goes, the other view of the model does not stand in for it. -/
example :
    let ops : List Operation := [.registerDefaults, .openComm ⟨⟨"c"⟩, "BoolWidgetModel"⟩,
      .display ⟨"c"⟩ "CheckboxView" none (.cell 0), .display ⟨"c"⟩ "CheckboxView" none (.cell 1),
      .ui ⟨1⟩ .click, .ui ⟨2⟩ .click, .removeView ⟨2⟩]
    let start := new (.withCells 2) 3
    let m := (start.run ops).1
    start.lastActor ⟨"c"⟩ none ops = some ⟨2⟩ ∧ m.groupOf? ⟨1⟩ = some (.cell 0) ∧
      (m.models.get? ⟨"c"⟩).map Model.outputGroup = some none ∧ m.output ⟨"c"⟩ "text" = m := by
  decide +kernel

end Manager

end WidgetSync
