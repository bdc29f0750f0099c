import WidgetSync.Proofs.Manager.Fate

/-! A page and a backend that answers. The backend takes the messages of one comm in the order in which they were
sent, and answers each with one idle report, sooner or later. The page counts the messages that it has in flight, and
this is about how far the count can be off: an answer to application data frees a slot that the data never took. -/
namespace WidgetSync

structure Exchange where
  manager : Manager
  /-- The frames of the comm that the backend has answered. -/
  answered : List Frame
  /-- The frames of the comm that it has not answered yet, the oldest first. -/
  unanswered : List Frame

inductive Turn where
  | page (op : Operation)
  /-- The backend answers the oldest frame, if there is one. -/
  | answer
  deriving DecidableEq

namespace Exchange

def start (m : Manager) : Exchange := ⟨m, [], []⟩

def step (e : Exchange) (comm : CommId) : Turn → Exchange
  | .page op =>
    let outcome := e.manager.step op
    { e with
      manager := outcome.manager
      unanswered := e.unanswered ++ framesOn comm outcome.frames }
  | .answer =>
    match e.unanswered with
    | [] => e
    | frame :: rest =>
      let outcome := e.manager.step (.status comm ⟨.idle⟩)
      ⟨outcome.manager, e.answered ++ [frame], rest ++ framesOn comm outcome.frames⟩

def run (e : Exchange) (comm : CommId) : List Turn → Exchange
  | [] => e
  | turn :: rest => (e.step comm turn).run comm rest

/-- The frames that carry state and are not answered. -/
def syncsInFlight (e : Exchange) : Nat := e.unanswered.countP Frame.isSync

/-- The answers to frames that carry no state. -/
def strayAnswers (e : Exchange) : Nat := e.answered.countP fun frame => !frame.isSync

/-- The model counts no frame in flight that is answered, and misses no more than were answered astray. -/
structure Accounted (e : Exchange) (throttle : Nat) (model : Model) : Prop where
  bounded : model.Bounded
  limit : model.throttle = throttle
  pending_le : model.pending ≤ e.syncsInFlight
  syncs_le : e.syncsInFlight ≤ model.pending + e.strayAnswers

/-- The frames that a model sends and the slots that it takes are in balance. -/
structure Balanced (model model' : Model) (frames : List Frame) (idles : Nat) : Prop where
  bounded : model.Bounded → model'.Bounded
  limit : model'.throttle = model.throttle
  pending_le : model'.pending ≤ model.pending + frames.countP Frame.isSync - idles
  syncs_le : frames.countP Frame.isSync + model.pending ≤ model'.pending + idles

variable {comm : CommId} {model model' : Model}

/-- A step of the manager is in balance for a model that lives on, with an idle report on its comm counted. -/
theorem balanced_step {m : Manager} (h : m.Consistent) (op : Operation)
    (hm : m.models.get? comm = some model)
    (hm' : (m.step op).manager.models.get? comm = some model') :
    Balanced model model' (framesOn comm (m.step op).frames)
      (if op = .status comm ⟨.idle⟩ then 1 else 0) := by
  have hd : model.comm.delivers = true := by
    rw [h.opened comm model hm]
    rfl
  have hstatus := Manager.requestOn_status hm ⟨.idle⟩
  have hfate := h.fate op comm
  rw [hm, hm'] at hfate
  generalize framesOn comm (m.step op).frames = frames at hfate
  cases hfate with
  | @asked _ r hr =>
    have hiff : op = .status comm ⟨.idle⟩ ↔ r = .status ⟨.idle⟩ := by
      constructor
      · rintro rfl
        exact Option.some.inj (hr.symm.trans hstatus)
      · rintro rfl
        exact Manager.status_of_requestOn hr
    simp only [hiff]
    exact ⟨fun hb => hb.run r.operations, model.run_throttle r.operations, Model.ask_pending_le hd r,
      model.ask_syncs r⟩
  | kept hr hs hv _ =>
    -- It was not an idle report, for that would have been asked of the model.
    have hne : op ≠ .status comm ⟨.idle⟩ := by
      rintro rfl
      exact absurd (hr.symm.trans hstatus) nofun
    simp only [Model.content, Prod.mk.injEq] at hs
    obtain ⟨_, _, _, _, hpending, hthrottle, hbuffer, _⟩ := hs
    rw [if_neg hne]
    refine ⟨fun hb => hb.of_same hpending hthrottle hbuffer, hthrottle, ?_, ?_⟩
    · simp [hpending]
    · simp [hpending]

variable {e : Exchange} {throttle : Nat}

theorem consistent_step (h : e.manager.Consistent) (comm : CommId) (turn : Turn) :
    (e.step comm turn).manager.Consistent := by
  cases turn with
  | page op => exact h.step op
  | answer =>
    rw [step]
    split
    · exact h
    · exact h.step _

theorem Accounted.step (ha : e.Accounted throttle model) (h : e.manager.Consistent) {turn : Turn}
    (hturn : turn ≠ .page (.status comm ⟨.idle⟩)) (hm : e.manager.models.get? comm = some model)
    (hm' : (e.step comm turn).manager.models.get? comm = some model') :
    (e.step comm turn).Accounted throttle model' := by
  obtain ⟨hbounded, hlimit, hpending, hsyncs⟩ := ha
  rw [syncsInFlight] at hpending hsyncs
  cases turn with
  | page op =>
    have hop : op ≠ .status comm ⟨.idle⟩ := fun he => hturn (congrArg Turn.page he)
    have hbalance := balanced_step h op hm hm'
    rw [if_neg hop] at hbalance
    obtain ⟨hb, hl, hp, hs⟩ := hbalance
    refine ⟨hb hbounded, hl.trans hlimit, ?_, ?_⟩
    · simp only [Exchange.step, syncsInFlight, List.countP_append]
      omega
    · simp only [Exchange.step, syncsInFlight, strayAnswers, List.countP_append] at hsyncs ⊢
      omega
  | answer =>
    cases hqueue : e.unanswered with
    | nil =>
      -- The backend has nothing to answer.
      have hsame : e.step comm .answer = e := by simp only [Exchange.step, hqueue]
      rw [hsame] at hm' ⊢
      obtain rfl : model = model' := Option.some.inj (hm.symm.trans hm')
      exact ⟨hbounded, hlimit, hpending, hsyncs⟩
    | cons frame rest =>
      let outcome := e.manager.step (.status comm ⟨.idle⟩)
      have hnext : e.step comm .answer =
          ⟨outcome.manager, e.answered ++ [frame], rest ++ framesOn comm outcome.frames⟩ := by
        simp only [Exchange.step, hqueue, outcome]
      rw [hnext] at hm' ⊢
      have hbalance : Balanced model model' (framesOn comm outcome.frames) 1 := by
        have hidle := balanced_step h (.status comm ⟨.idle⟩) hm hm'
        rwa [if_pos rfl] at hidle
      obtain ⟨hb, hl, hp, hs⟩ := hbalance
      -- One frame less that carries state is in flight, or one answer more is astray.
      have hfirst : ((frame :: rest).countP Frame.isSync = rest.countP Frame.isSync + 1 ∧
            strayAnswers ⟨outcome.manager, e.answered ++ [frame], rest ++ framesOn comm outcome.frames⟩ =
              e.strayAnswers) ∨
          ((frame :: rest).countP Frame.isSync = rest.countP Frame.isSync ∧
            strayAnswers ⟨outcome.manager, e.answered ++ [frame], rest ++ framesOn comm outcome.frames⟩ =
              e.strayAnswers + 1) := by
        simp only [strayAnswers, List.countP_append]
        cases hsync : frame.isSync with
        | true => exact .inl (by simp [hsync])
        | false => exact .inr (by simp [hsync])
      rw [hqueue] at hpending hsyncs
      refine ⟨hb hbounded, hl.trans hlimit, ?_, ?_⟩
      · rw [syncsInFlight, List.countP_append]
        omega
      · rw [syncsInFlight, List.countP_append]
        omega

/-! ### Runs -/

theorem accounted_run (ha : e.Accounted throttle model) (h : e.manager.Consistent) {turns : List Turn}
    (hturns : .page (.status comm ⟨.idle⟩) ∉ turns)
    (hlive : ∀ done, done <+: turns → (e.run comm done).manager.models.contains comm = true)
    (hm : e.manager.models.get? comm = some model) :
    ∃ model', (e.run comm turns).manager.models.get? comm = some model' ∧
      (e.run comm turns).Accounted throttle model' := by
  induction turns generalizing e model with
  | nil => exact ⟨model, hm, ha⟩
  | cons turn rest ih =>
    obtain ⟨between, hmid⟩ := OrdMap.contains_iff.mp (hlive [turn] (by simp))
    have hfirst : turn ≠ .page (.status comm ⟨.idle⟩) := fun he => hturns (he ▸ List.mem_cons_self)
    have hothers : .page (.status comm ⟨.idle⟩) ∉ rest := fun hm => hturns (List.mem_cons_of_mem _ hm)
    have hrest : ∀ done, done <+: rest →
        ((e.step comm turn).run comm done).manager.models.contains comm = true := by
      intro done hd
      exact hlive (turn :: done) (List.cons_prefix_cons.mpr ⟨rfl, hd⟩)
    have hnext : (e.step comm turn).Accounted throttle between := ha.step h hfirst hm hmid
    exact ih hnext (consistent_step h comm turn) hothers hrest hmid

/-- From the opening of a comm on, and as long as its model lives, whatever the page does meanwhile: the frames with
state that the backend has not answered are at most as many as the model counts, which the throttle bounds, and as
many more as the backend has answered frames without state. -/
theorem syncs_in_flight_le (notebook : Notebook) (throttle : Nat) (before : List Operation)
    (request : CommOpen) (opened : Manager) (turns : List Turn)
    (ho : ((Manager.new notebook throttle).run before).1.openComm request = .ok opened)
    (hturns : .page (.status request.comm ⟨.idle⟩) ∉ turns)
    (hlive : ∀ done, done <+: turns →
      ((start opened).run request.comm done).manager.models.contains request.comm = true) :
    let now := (start opened).run request.comm turns
    ∃ model, now.manager.models.get? request.comm = some model ∧ model.pending ≤ throttle ∧
      model.pending ≤ now.syncsInFlight ∧
      now.syncsInFlight ≤ model.pending + now.strayAnswers := by
  intro now
  let m := ((Manager.new notebook throttle).run before).1
  have h : m.Consistent := (Manager.new_consistent notebook throttle).run before
  obtain ⟨_, kind, he⟩ := Manager.openComm_ok ho
  let first := Model.fresh kind.name (m.hub.comm request.comm) kind.defaults m.throttle
  have hfirst : opened.models.get? request.comm = some first := by
    rw [he, Manager.setModel, OrdMap.get?_insert_eq, if_pos rfl]
    rfl
  have hlimit : first.throttle = throttle := Manager.run_throttle notebook throttle before
  -- At first nothing is in flight, and nothing counts as in flight.
  have hstart : (start opened).Accounted throttle first :=
    ⟨Model.fresh_bounded .., hlimit, Nat.le_refl 0, Nat.le_refl 0⟩
  obtain ⟨model, hm, ha⟩ := accounted_run hstart (h.openComm ho) hturns hlive hfirst
  have hpending : model.pending ≤ throttle := ha.limit ▸ ha.bounded.pending_le
  exact ⟨model, hm, hpending, ha.pending_le, ha.syncs_le⟩

/-- While only state is answered the count is exact: of two changes the first is sent, and the second once the first
is answered. -/
theorem checkbox_accounted :
    let before : List Operation := [.registerDefaults]
    let request : CommOpen := ⟨⟨"c"⟩, "BoolWidgetModel"⟩
    let ready := ((Manager.new (.withCells 1) 1).run before).1
    let opened := ready.setModel ⟨"c"⟩ ((ModelKind.bool.model (.opened ⟨"c"⟩)).withThrottle 1)
    let turns : List Turn := [.page (.display ⟨"c"⟩ "CheckboxView" none .detached),
      .page (.ui ⟨1⟩ .click), .page (.ui ⟨1⟩ .click), .answer]
    ready.openComm request = .ok opened ∧ .page (.status request.comm ⟨.idle⟩) ∉ turns ∧
      (∀ done, done <+: turns →
        ((start opened).run request.comm done).manager.models.contains request.comm = true) ∧
      ∃ model, ((start opened).run request.comm turns).manager.models.get? request.comm = some model ∧
        model.pending ≤ 1 ∧ model.pending = ((start opened).run request.comm turns).syncsInFlight := by
  intro before request ready opened turns
  have hopen : ready.openComm request = .ok opened := by decide +kernel
  have hturns : .page (.status request.comm ⟨.idle⟩) ∉ turns := by decide +kernel
  have hinits : ∀ done ∈ turns.inits,
      ((start opened).run request.comm done).manager.models.contains request.comm = true := by
    decide +kernel
  have hlive : ∀ done, done <+: turns →
      ((start opened).run request.comm done).manager.models.contains request.comm = true :=
    fun done hd => hinits done ((List.mem_inits done turns).mpr hd)
  have hstray : ((start opened).run request.comm turns).strayAnswers = 0 := by decide +kernel
  obtain ⟨model, hm, hle, hpending, hsyncs⟩ :=
    syncs_in_flight_le (.withCells 1) 1 before request opened turns hopen hturns hlive
  refine ⟨hopen, hturns, hlive, model, hm, hle, ?_⟩
  omega

/-- The answer to a click on a button frees the slot of a change that is still in flight, so that the next change is
sent too, with room for one. -/
theorem two_syncs_in_flight :
    let ready := Manager.withDefaults (.withCells 1) 1
    let opened := ready.setModel ⟨"c"⟩ ((ModelKind.bool.model (.opened ⟨"c"⟩)).withThrottle 1)
    let turns : List Turn := [.page (.display ⟨"c"⟩ "ButtonView" none .detached),
      .page (.display ⟨"c"⟩ "CheckboxView" none .detached),
      .page (.ui ⟨1⟩ .click), .page (.ui ⟨2⟩ .click), .answer, .page (.ui ⟨2⟩ .click)]
    ready.openComm ⟨⟨"c"⟩, "BoolWidgetModel"⟩ = .ok opened ∧
      ((start opened).run ⟨"c"⟩ turns).syncsInFlight = 2 ∧
      ((start opened).run ⟨"c"⟩ turns).unanswered.length = 2 := by
  decide +kernel

end Exchange

end WidgetSync
