import WidgetSync.Proofs.Manager.Run
import Mathlib.Data.List.Infix

/-! One life of a comm, from its opening to the drop of its model. Whatever the manager is asked meanwhile, the
model goes through operations of its own, and the frames on the comm are those that they send. So what holds of
runs of one model holds of its life among others. -/
namespace WidgetSync

theorem ModelOperation.isOngoing_of_isStateful {op : ModelOperation} (h : op.isStateful = true) :
    op.isOngoing = true := by
  revert h
  cases op <;> simp [isStateful, isOngoing]

/-- The frames on one comm. -/
def framesOn (comm : CommId) (frames : List Frame) : List Frame := frames.filter (·.comm = comm)

/-- The local changes that one comm's model is told. -/
def changesOn (comm : CommId) (made : List (CommId × Attributes)) : List Attributes :=
  (made.filter (·.1 = comm)).map (·.2)

theorem framesOn_append (comm : CommId) (xs ys : List Frame) :
    framesOn comm (xs ++ ys) = framesOn comm xs ++ framesOn comm ys := List.filter_append ..

theorem framesOn_self {comm : CommId} {frames : List Frame} (h : ∀ f ∈ frames, f.comm = comm) :
    framesOn comm frames = frames :=
  List.filter_eq_self.mpr fun f hf => decide_eq_true (h f hf)

theorem framesOn_other {comm : CommId} {frames : List Frame} (h : ∀ f ∈ frames, f.comm ≠ comm) :
    framesOn comm frames = [] :=
  List.filter_eq_nil_iff.mpr fun f hf ho => h f hf (of_decide_eq_true ho)

theorem changesOn_append (comm : CommId) (xs ys : List (CommId × Attributes)) :
    changesOn comm (xs ++ ys) = changesOn comm xs ++ changesOn comm ys := by
  rw [changesOn, List.filter_append, List.map_append]
  rfl

theorem changesOn_self (comm : CommId) (changes : List Attributes) :
    changesOn comm (changes.map (comm, ·)) = changes := by
  have hall : (changes.map (comm, ·)).filter (·.1 = comm) = changes.map (comm, ·) := by
    refine List.filter_eq_self.mpr fun p hp => ?_
    obtain ⟨c, _, rfl⟩ := List.mem_map.mp hp
    exact decide_eq_true rfl
  rw [changesOn, hall, List.map_map]
  exact List.map_id changes

theorem changesOn_other {c comm : CommId} (h : c ≠ comm) (changes : List Attributes) :
    changesOn comm (changes.map (c, ·)) = [] := by
  have hnone : (changes.map (c, ·)).filter (·.1 = comm) = [] := by
    refine List.filter_eq_nil_iff.mpr fun p hp ho => ?_
    obtain ⟨a, _, rfl⟩ := List.mem_map.mp hp
    exact h (of_decide_eq_true ho)
  rw [changesOn, hnone, List.map_nil]

namespace Model

/-- A model has gone through ongoing operations that sent these frames and told it these local changes. -/
def Went (m m' : Model) (frames : List Frame) (changes : List Attributes) : Prop :=
  ∃ ops : List ModelOperation, (∀ op ∈ ops, op.isOngoing = true) ∧ m.run ops = (m', frames) ∧
    ops.filterMap ModelOperation.change? = changes

namespace Went

variable {m m₁ m₂ : Model} {frames rest : List Frame} {changes more : List Attributes}

theorem refl (m : Model) : Went m m [] [] := ⟨[], nofun, rfl, rfl⟩

theorem trans (h : m.Went m₁ frames changes) (k : m₁.Went m₂ rest more) :
    m.Went m₂ (frames ++ rest) (changes ++ more) := by
  obtain ⟨ops, ho, hr, hc⟩ := h
  obtain ⟨ops', ho', hr', hc'⟩ := k
  refine ⟨ops ++ ops', fun op hop => ?_, ?_, ?_⟩
  · rcases List.mem_append.mp hop with hop | hop
    · exact ho op hop
    · exact ho' op hop
  · rw [run_append, hr]
    simp only [hr']
  · rw [List.filterMap_append, hc, hc']

theorem faithful {sent made : List Attributes} (hf : m.Faithful sent made)
    (h : m.Went m₁ frames changes) : m₁.Faithful (sent ++ patches frames) (made ++ changes) := by
  obtain ⟨ops, ho, hr, rfl⟩ := h
  have hrun := hf.run ho
  rwa [hr] at hrun

theorem throttle (h : m.Went m₁ frames changes) : m₁.throttle = m.throttle := by
  obtain ⟨ops, _, hr, _⟩ := h
  have ht := m.run_throttle ops
  rwa [hr] at ht

end Went

/-- Views that leave a model, as operations on it. -/
theorem went_leaveAll (m : Model) (gone : List ViewId) : m.Went (m.leaveAll gone) [] [] := by
  induction gone generalizing m with
  | nil => exact .refl m
  | cons id rest ih =>
    have hfirst : m.Went (m.leave id) [] [] := by
      refine ⟨[.unsubscribe id, .removeView id], fun op hop => ?_, rfl, rfl⟩
      rcases List.mem_cons.mp hop with rfl | hop
      · rfl
      · rw [List.mem_singleton.mp hop]
        rfl
    exact hfirst.trans (ih (m.leave id))

theorem went_enroll (m : Model) (group : GroupKey) (id : ViewId) : m.Went (m.enroll group id) [] [] := by
  refine ⟨[.addView group id, .subscribe id], fun op hop => ?_, rfl, rfl⟩
  rcases List.mem_cons.mp hop with rfl | hop
  · rfl
  · rw [List.mem_singleton.mp hop]
    rfl

end Model

namespace Manager

variable {m m' : Manager} {made : List (CommId × Attributes)} {frames : List Frame} {comm : CommId}
  {model model' : Model}

/-- A walk sends nothing on the comm of a model that outlasts it, and only takes views away from it. -/
theorem Consistent.went_departures (h : m.Consistent) {walk : List ViewId} {models : Models}
    (hsp : Spared m walk models) (hn : walk.Nodup) (hm : models.get? comm = some model)
    (hm' : (Models.departures m.views.owner models walk).1.get? comm = some model') :
    model.Went model' (framesOn comm (Models.departures m.views.owner models walk).2) [] := by
  have ha := h.attended_of_spared hsp
  have hget := Models.get?_departures hm (ha.tidy comm model hm) hn fun x _ => ha.owns comm model hm x
  have hcount := Models.count_closings ha hm hn
  rw [hget] at hm'
  split at hm'
  · exact absurd hm' (by simp)
  · next hkept =>
    rw [if_neg hkept] at hcount
    obtain rfl := Option.some.inj hm'
    have hnone : framesOn comm (Models.closings m.views.owner models [] walk) = [] := by
      refine framesOn_other fun f hf hc => ?_
      obtain ⟨c, rfl⟩ := Models.mem_closings hf
      obtain rfl : c = comm := hc
      exact List.count_eq_zero.mp hcount hf
    rw [Models.departures_frames ha hn, hnone]
    exact model.went_leaveAll _

/-- A model does not come back in a move. -/
theorem Consistent.dead_move (h : m.Consistent) (mv : Move m m' made frames)
    (hd : m.models.get? comm = none) : m'.models.get? comm = none := by
  cases mv with
  | around ha =>
    rw [ha.models]
    exact hd
  | @ask c asked hm ops ho =>
    have hne : c ≠ comm := (OrdMap.ne_of_get? hd hm).symm
    rw [setModel, OrdMap.get?_insert_eq, if_neg hne]
    exact hd
  | draw f hf => exact hd
  | place hm hp kind group =>
    rw [get?_place_models, hd]
    split <;> rfl
  | remove id =>
    rw [removeView_eq h.forest]
    exact Models.get?_departures_of_dead hd _
  | close c =>
    cases hm : m.models.get? c with
    | none =>
      rw [closeComm_of_dead hm]
      exact hd
    | some closed =>
      have hleft : (m.models.erase c).get? comm = none := by
        rw [OrdMap.get?_erase, hd]
        split <;> rfl
      rw [closeComm_of_live h.forest hm]
      exact Models.get?_departures_of_dead hleft _

/-- In a move a model that lives on goes through operations of its own. -/
theorem Consistent.went_move (h : m.Consistent) (mv : Move m m' made frames)
    (hm : m.models.get? comm = some model) (hm' : m'.models.get? comm = some model') :
    model.Went model' (framesOn comm frames) (changesOn comm made) := by
  have hsame {n : Manager} (he : n.models = m.models) (hn : n.models.get? comm = some model') :
      model = model' := by
    rw [he, hm] at hn
    exact Option.some.inj hn
  cases mv with
  | around ha =>
    obtain rfl := hsame ha.models hm'
    exact .refl model
  | @ask c asked hask ops ho =>
    have hongoing : ∀ op ∈ ops, op.isOngoing = true :=
      fun op hop => ModelOperation.isOngoing_of_isStateful (ho op hop)
    have hid : asked.id = c := by
      rw [Model.id, h.opened c asked hask]
      rfl
    have hcomm : ∀ f ∈ (asked.run ops).2, f.comm = c :=
      fun f hf => (asked.run_frames_comm hongoing hf).trans hid
    rw [setModel, OrdMap.get?_insert_eq] at hm'
    by_cases hc : c = comm
    · -- The model itself is asked.
      subst hc
      rw [if_pos rfl] at hm'
      obtain rfl := Option.some.inj hm'
      obtain rfl : asked = model := Option.some.inj (hask.symm.trans hm)
      rw [framesOn_self hcomm, changesOn_self]
      exact ⟨ops, hongoing, rfl, rfl⟩
    · rw [if_neg hc] at hm'
      obtain rfl : model = model' := Option.some.inj (hm.symm.trans hm')
      rw [framesOn_other fun f hf he => hc ((hcomm f hf).symm.trans he), changesOn_other hc]
      exact .refl model
  | draw f hf =>
    obtain rfl := hsame rfl hm'
    exact .refl model
  | @place c asked placement hask hp kind group =>
    rw [get?_place_models, hm] at hm'
    split at hm'
    · obtain rfl := Option.some.inj hm'
      exact model.went_enroll group _
    · obtain rfl := Option.some.inj hm'
      exact .refl model
  | remove id =>
    rw [removeView_eq h.forest] at hm' ⊢
    exact h.went_departures (spared_self m _) (h.forest.subtree_nodup id) hm hm'
  | close c =>
    cases hclosed : m.models.get? c with
    | none =>
      rw [closeComm_of_dead hclosed] at hm' ⊢
      obtain rfl := hsame rfl hm'
      exact .refl model
    | some closed =>
      have hsub : closed.views ⊆ m.views.sweep closed.views := h.views_subset_sweep hclosed
      rw [closeComm_of_live h.forest hclosed] at hm' ⊢
      have hne : c ≠ comm := by
        rintro rfl
        have hdead : (m.models.erase c).get? c = none := by rw [OrdMap.get?_erase, if_pos rfl]
        have hnone : (Models.departures m.views.owner (m.models.erase c)
            (m.views.sweep closed.views)).1.get? c = none := Models.get?_departures_of_dead hdead _
        exact absurd (hm'.symm.trans hnone) (by simp)
      have hleft : (m.models.erase c).get? comm = some model := by
        rw [OrdMap.get?_erase, if_neg hne]
        exact hm
      exact h.went_departures (h.spared_erase hclosed hsub) (h.forest.sweep_nodup _) hleft hm'

theorem Consistent.dead_moves (h : m.Consistent) (mv : Moves m m' made frames)
    (hd : m.models.get? comm = none) : m'.models.get? comm = none := by
  induction mv with
  | refl => exact hd
  | head first _ ih => exact ih (h.move first) (h.dead_move first hd)

theorem Consistent.went_moves (h : m.Consistent) (mv : Moves m m' made frames)
    (hm : m.models.get? comm = some model) (hm' : m'.models.get? comm = some model') :
    model.Went model' (framesOn comm frames) (changesOn comm made) := by
  induction mv generalizing model with
  | refl =>
    obtain rfl : model = model' := Option.some.inj (hm.symm.trans hm')
    exact .refl model
  | @head m m₁ m₂ made more frames rest first tail ih =>
    have hnext := h.move first
    -- What is live in the end was live all along.
    cases hmid : m₁.models.get? comm with
    | none =>
      have hd := hnext.dead_moves tail hmid
      exact absurd (hm'.symm.trans hd) (by simp)
    | some between =>
      rw [framesOn_append, changesOn_append]
      exact (h.went_move first hm hmid).trans (ih hnext hmid hm')

/-- The same for a whole operation. -/
theorem Consistent.went_step (h : m.Consistent) (op : Operation)
    (hm : m.models.get? comm = some model) (hm' : (m.step op).manager.models.get? comm = some model') :
    model.Went model' (framesOn comm (m.step op).frames) (changesOn comm (m.localChanges op)) := by
  rcases step_moves h op with ⟨request, opened, rfl, ho, he, hf⟩ |
    ⟨cell, message, executed, rfl, hx, he, hf⟩ | hmoves
  · obtain ⟨hdead, kind, rfl⟩ := openComm_ok ho
    have hne : request.comm ≠ comm := OrdMap.ne_of_get? hdead hm
    rw [he, setModel, OrdMap.get?_insert_eq, if_neg hne, hm] at hm'
    obtain rfl := Option.some.inj hm'
    rw [hf]
    exact .refl model
  · -- An execution leaves the models alone.
    obtain ⟨notebook, _, rfl⟩ := execute_ok hx
    rw [he] at hm'
    obtain rfl : model = model' := Option.some.inj (hm.symm.trans hm')
    rw [hf]
    exact .refl model
  · exact h.went_moves hmoves hm hm'

/-- The local changes that the operations tell the models, in their order. -/
def changesMade (m : Manager) : List Operation → List (CommId × Attributes)
  | [] => []
  | op :: rest => m.localChanges op ++ (m.step op).manager.changesMade rest

/-- The same for a whole run in which the model lives on. -/
theorem Consistent.went_run (h : m.Consistent) {ops : List Operation}
    (hlive : ∀ done, done <+: ops → (m.run done).1.models.contains comm = true)
    (hm : m.models.get? comm = some model) (hm' : (m.run ops).1.models.get? comm = some model') :
    model.Went model' (framesOn comm (m.run ops).2) (changesOn comm (m.changesMade ops)) := by
  induction ops generalizing m model with
  | nil =>
    obtain rfl : model = model' := Option.some.inj (hm.symm.trans hm')
    exact .refl model
  | cons op rest ih =>
    obtain ⟨between, hmid⟩ := OrdMap.contains_iff.mp (hlive [op] (by simp))
    have hrest : ∀ done, done <+: rest →
        ((m.step op).manager.run done).1.models.contains comm = true := by
      intro done hd
      exact hlive (op :: done) (List.cons_prefix_cons.mpr ⟨rfl, hd⟩)
    rw [run_cons, framesOn_append, changesMade, changesOn_append]
    exact (h.went_step op hm hmid).trans (ih (h.step op) hrest hmid hm')

/-! ### Settling down -/

theorem step_status (hm : m.models.get? comm = some model) (report : StatusMessage) :
    m.step (.status comm report) =
      ⟨m.setModel comm (model.handleStatus report).1, (model.handleStatus report).2, .ok .done⟩ := by
  simp only [step, status, hm]

/-- Reports to one comm are a run of its model. -/
theorem run_statuses (hm : m.models.get? comm = some model) (report : StatusMessage) (k : Nat) :
    (m.run (List.replicate k (.status comm report))).1.models.get? comm =
        some (model.run (List.replicate k (.status report))).1 ∧
      (m.run (List.replicate k (.status comm report))).2 =
        (model.run (List.replicate k (.status report))).2 := by
  induction k generalizing m model with
  | zero => exact ⟨hm, rfl⟩
  | succ k ih =>
    have hnext : (m.setModel comm (model.handleStatus report).1).models.get? comm =
        some (model.handleStatus report).1 := by
      rw [setModel, OrdMap.get?_insert_eq, if_pos rfl]
    obtain ⟨hmodel, hframes⟩ := ih hnext
    rw [List.replicate_succ, List.replicate_succ, run_cons, Model.run_cons, step_status hm, Model.step]
    exact ⟨hmodel, congrArg ((model.handleStatus report).2 ++ ·) hframes⟩

theorem run_throttle (notebook : Notebook) (throttle : Nat) (ops : List Operation) :
    ((new notebook throttle).run ops).1.throttle = throttle :=
  ((new_consistent notebook throttle).later_run ops).throttle

/-- A life starts with a new model, which has told everything that it was told. -/
theorem Consistent.opened_faithful (h : m.Consistent) {opened : Manager} {request : CommOpen}
    (ho : m.openComm request = .ok opened) :
    ∃ first : Model, opened.models.get? request.comm = some first ∧ first.throttle = m.throttle ∧
      first.Faithful [] [] := by
  obtain ⟨_, kind, he⟩ := openComm_ok ho
  have hdelivers : (m.hub.comm request.comm).delivers = true := by
    rw [CommHub.comm, h.reader]
    rfl
  refine ⟨Model.fresh kind.name (m.hub.comm request.comm) kind.defaults m.throttle, ?_, rfl,
    Model.fresh_faithful kind.name hdelivers kind.defaults m.throttle⟩
  rw [he, setModel, OrdMap.get?_insert_eq, if_pos rfl]
  rfl

/-- From the opening of a comm on, and as long as its model lives, no local change is lost, reordered or
invented: the patches sent on the comm and then what waits amount to all local changes, whatever else the
manager is asked. As many idle reports as the throttle allows messages, and one more, send what waits. -/
theorem local_changes_delivered (notebook : Notebook) (throttle : Nat) (before ops : List Operation)
    (request : CommOpen) (opened : Manager)
    (ho : ((new notebook throttle).run before).1.openComm request = .ok opened)
    (hlive : ∀ done, done <+: ops → (opened.run done).1.models.contains request.comm = true) :
    let now := opened.run ops
    let sent := patches (framesOn request.comm now.2)
    let made := changesOn request.comm (opened.changesMade ops)
    let settled := now.1.run (List.replicate (throttle + 1) (.status request.comm ⟨.idle⟩))
    ∃ model model', now.1.models.get? request.comm = some model ∧
      Attributes.mergeAll (sent ++ model.buffer.toList) = Attributes.mergeAll made ∧
      settled.1.models.get? request.comm = some model' ∧ model'.pending = 0 ∧
      (∀ waiting, model'.buffer = some waiting → waiting.isEmpty = true) ∧
      Attributes.mergeAll (sent ++ patches (framesOn request.comm settled.2)) =
        Attributes.mergeAll made := by
  intro now sent made settled
  have h : ((new notebook throttle).run before).1.Consistent :=
    (new_consistent notebook throttle).run before
  have hopened : opened.Consistent := h.openComm ho
  obtain ⟨first, hfirst, hlimit, hfaithful⟩ := h.opened_faithful ho
  -- The life goes on with operations of the model alone.
  obtain ⟨model, hmodel⟩ := OrdMap.contains_iff.mp (hlive ops (List.prefix_refl ops))
  have hwent := hopened.went_run hlive hfirst hmodel
  have hnow : model.Faithful sent made := hwent.faithful hfaithful
  have hthrottle : model.throttle = throttle := by
    rw [hwent.throttle, hlimit, run_throttle]
  -- It settles with idle reports, which the model answers by itself.
  obtain ⟨hend, hframes⟩ := run_statuses hmodel ⟨.idle⟩ (throttle + 1)
  obtain ⟨hpending, hwaiting, hall⟩ := hnow.settle
  rw [hthrottle] at hpending hwaiting hall
  have hown : framesOn request.comm settled.2 = settled.2 := by
    apply framesOn_self
    intro f hf
    have hid : model.id = request.comm := by
      rw [Model.id, (hopened.run ops).opened request.comm model hmodel]
      rfl
    rw [← hid]
    exact model.run_frames_comm (fun op hop => Model.isOngoing_of_mem_idles hop) (hframes ▸ hf)
  refine ⟨model, _, hmodel, hnow.merged, hend, hpending, ?_, ?_⟩
  · intro waiting hw
    by_contra hne
    rw [Bool.not_eq_true] at hne
    have hsome := Model.isWaiting_iff.mpr ⟨waiting, hw, hne⟩
    exact absurd (hwaiting.symm.trans hsome) Bool.false_ne_true
  · have hsettled : settled.2 = _ := hframes
    rw [hown, hsettled]
    exact hall

/-- With room for one message, of two changes the first is sent, and the second waits until the model settles. -/
theorem second_change_delivered :
    let before : List Operation := [.registerModel "M" .plain, .registerView "V" .plain]
    let ops : List Operation :=
      [.display ⟨"c"⟩ "V" none .detached, .change ⟨1⟩ (OrdMap.ofList [("x", .ofInt64 1)]),
        .change ⟨1⟩ (OrdMap.ofList [("x", .ofInt64 2)])]
    let start := ((new (.withCells 1) 1).run before).1
    let opened := start.setModel ⟨"c"⟩ ((ModelKind.plain.model (.opened ⟨"c"⟩)).withThrottle 1)
    start.openComm ⟨⟨"c"⟩, "M"⟩ = .ok opened ∧
      (∀ done, done <+: ops → (opened.run done).1.models.contains ⟨"c"⟩ = true) ∧
      patches (opened.run ops).2 = [OrdMap.ofList [("x", .ofInt64 1)]] ∧
      let settled := (opened.run ops).1.run (List.replicate 2 (.status ⟨"c"⟩ ⟨.idle⟩))
      Attributes.mergeAll (patches (framesOn ⟨"c"⟩ (opened.run ops).2) ++
        patches (framesOn ⟨"c"⟩ settled.2)) = OrdMap.ofList [("x", .ofInt64 2)] := by
  intro before ops start opened
  have hopen : start.openComm ⟨⟨"c"⟩, "M"⟩ = .ok opened := by decide +kernel
  have hinits : ∀ done ∈ ops.inits, (opened.run done).1.models.contains ⟨"c"⟩ = true := by
    decide +kernel
  have hlive : ∀ done, done <+: ops → (opened.run done).1.models.contains ⟨"c"⟩ = true :=
    fun done hd => hinits done ((List.mem_inits done ops).mpr hd)
  have hsent : patches (opened.run ops).2 = [OrdMap.ofList [("x", .ofInt64 1)]] := by decide +kernel
  have hmade : Attributes.mergeAll (changesOn ⟨"c"⟩ (opened.changesMade ops)) =
      OrdMap.ofList [("x", .ofInt64 2)] := by decide +kernel
  obtain ⟨_, _, _, _, _, _, _, hsettled⟩ :=
    local_changes_delivered (.withCells 1) 1 before ops ⟨⟨"c"⟩, "M"⟩ opened hopen hlive
  exact ⟨hopen, hlive, hsent, hsettled.trans hmade⟩

end Manager

end WidgetSync
