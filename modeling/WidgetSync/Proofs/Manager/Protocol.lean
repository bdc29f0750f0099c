import WidgetSync.Proofs.Manager.Fate

/-! What can be seen on one comm. Its frames fall into lives, each of which begins when the comm is opened and holds
messages only, up to the one close that the page sends when the last view of the model goes. -/
namespace WidgetSync

/-- What happens on a comm. -/
inductive CommEvent where
  | opened
  | sent (frame : Frame)
  /-- The comm has no model any more. -/
  | dropped
  deriving DecidableEq

def CommEvent.frame? : CommEvent → Option Frame
  | .opened => none
  | .sent frame => some frame
  | .dropped => none

/-- How a life of a comm ends. -/
inductive Ending where
  | ongoing
  /-- The backend closes the comm. -/
  | byBackend
  /-- The last view of the model goes. -/
  | byPage
  deriving DecidableEq

structure CommLife where
  messages : List (SyncMessage × Callbacks)
  ending : Ending
  deriving DecidableEq

namespace CommLife

/-- What happens in a life after the comm was opened. -/
def tail (comm : CommId) (life : CommLife) : List CommEvent :=
  (life.messages.map fun (data, callbacks) => .sent (.message comm data callbacks)) ++
    match life.ending with
    | .ongoing => []
    | .byBackend => [.dropped]
    | .byPage => [.sent (.close comm), .dropped]

def events (comm : CommId) (life : CommLife) : List CommEvent := .opened :: life.tail comm

/-- One life after another, of which only the last may go on, as it does if the comm is live in the end. -/
structure Chain (lives : List CommLife) (isLive : Bool) : Prop where
  ended : lives.Pairwise fun first _ => first.ending ≠ .ongoing
  ongoing_iff : (∃ life ∈ lives, life.ending = .ongoing) ↔ isLive = true

namespace Chain

variable {life : CommLife} {lives : List CommLife} {isLive : Bool}

/-- A life that has ended may come before others. -/
theorem cons_ended (h : Chain lives isLive) (he : life.ending ≠ .ongoing) :
    Chain (life :: lives) isLive where
  ended := List.pairwise_cons.mpr ⟨fun _ _ => he, h.ended⟩
  ongoing_iff := by
    rw [← h.ongoing_iff, List.exists_mem_cons_iff]
    exact ⟨fun hl => hl.resolve_left he, .inr⟩

/-- What was said in the first life does not matter. -/
theorem of_ending {other : CommLife} (h : Chain (life :: lives) isLive)
    (he : other.ending = life.ending) : Chain (other :: lives) isLive where
  ended := by
    obtain ⟨hfirst, hrest⟩ := List.pairwise_cons.mp h.ended
    refine List.pairwise_cons.mpr ⟨fun later hl => ?_, hrest⟩
    rw [he]
    exact hfirst later hl
  ongoing_iff := by
    rw [← h.ongoing_iff, List.exists_mem_cons_iff, List.exists_mem_cons_iff, he]

end Chain

end CommLife

namespace Manager

/-- What an operation does on a comm. -/
def eventsOf (m : Manager) (comm : CommId) (op : Operation) : List CommEvent :=
  let outcome := m.step op
  (if outcome.reply = .ok (.opened comm) then [.opened] else []) ++
    (framesOn comm outcome.frames).map .sent ++
    if m.models.contains comm && !outcome.manager.models.contains comm then [.dropped] else []

/-- What the operations do on a comm. -/
def history (m : Manager) (comm : CommId) : List Operation → List CommEvent
  | [] => []
  | op :: rest => m.eventsOf comm op ++ (m.step op).manager.history comm rest

variable {m : Manager} {op : Operation} {comm : CommId}

/-- The history tells of all frames. -/
theorem frames_of_history (m : Manager) (comm : CommId) (ops : List Operation) :
    (m.history comm ops).filterMap CommEvent.frame? = framesOn comm (m.run ops).2 := by
  induction ops generalizing m with
  | nil => rfl
  | cons op rest ih =>
    have hsent (frames : List Frame) :
        (frames.map CommEvent.sent).filterMap CommEvent.frame? = frames := by
      rw [List.filterMap_map]
      exact List.filterMap_some
    have hstep : (m.eventsOf comm op).filterMap CommEvent.frame? =
        framesOn comm (m.step op).frames := by
      simp only [eventsOf, List.filterMap_append, hsent]
      split <;> split <;> simp [List.filterMap_cons, CommEvent.frame?]
    rw [history, List.filterMap_append, hstep, ih, run_cons, framesOn_append]

/-! ### Opening -/

theorem reply_of_ofExcept {α : Type} {result : Except ManagerError α}
    {success : α → Manager × List Frame × Reply} {reply : Reply}
    (h : (Outcome.ofExcept m result success).reply = .ok reply) :
    ∃ a, result = .ok a ∧ (success a).2.2 = reply := by
  cases result with
  | error e => contradiction
  | ok a => exact ⟨a, rfl, Except.ok.inj h⟩

theorem reply_of_silent {result : Manager × Except ManagerError Unit} {reply : Reply}
    (h : (Outcome.silent result).reply = .ok reply) : reply = .done := by
  obtain ⟨after, result⟩ := result
  cases result with
  | error e => contradiction
  | ok a => exact (Except.ok.inj h).symm

/-- That a comm was opened is the answer to an opening alone. -/
theorem openComm_of_reply (h : (m.step op).reply = .ok (.opened comm)) :
    ∃ request opened, op = .openComm request ∧ request.comm = comm ∧ m.openComm request = .ok opened := by
  cases op with
  | openComm request =>
    obtain ⟨opened, ho, he⟩ := reply_of_ofExcept h
    exact ⟨request, opened, rfl, Reply.opened.inj he, ho⟩
  | message | update | registerDefaults => exact absurd (reply_of_silent h) nofun
  | registerModel | registerView | execute | display | change | ui | sendCustom =>
    obtain ⟨_, _, he⟩ := reply_of_ofExcept h
    exact absurd he nofun
  | status | output | closeComm | removeView => exact absurd h nofun

/-- An operation answers that it opened a comm when the comm gets its model. -/
theorem Consistent.reply_opened_iff (h : m.Consistent) (op : Operation) (comm : CommId) :
    (m.step op).reply = .ok (.opened comm) ↔
      m.models.get? comm = none ∧ (m.step op).manager.models.contains comm = true := by
  constructor
  · intro hr
    obtain ⟨request, opened, rfl, rfl, ho⟩ := openComm_of_reply hr
    obtain ⟨hdead, kind, he⟩ := openComm_ok ho
    refine ⟨hdead, OrdMap.contains_iff.mpr ⟨(kind.model (m.hub.comm request.comm)).withThrottle m.throttle, ?_⟩⟩
    rw [Manager.step, ho]
    show opened.models.get? request.comm = _
    rw [he, setModel, OrdMap.get?_insert_eq, if_pos rfl]
  · rintro ⟨hdead, hlive⟩
    obtain ⟨first, hfirst⟩ := OrdMap.contains_iff.mp hlive
    have hfate := h.fate op comm
    rw [hdead, hfirst] at hfate
    generalize framesOn comm (m.step op).frames = frames at hfate
    cases hfate with
    | opened hop hc ho hf =>
      rw [hop, Manager.step, ho, ← hc]
      rfl

/-! ### Lives -/

/-- What happens on a comm while its model goes from one state to another. -/
def eventsBetween (frames : List Frame) : Option Model → Option Model → List CommEvent
  | none, some _ => .opened :: frames.map .sent
  | some _, none => frames.map .sent ++ [.dropped]
  | none, none => frames.map .sent
  | some _, some _ => frames.map .sent

theorem Consistent.eventsOf_eq (h : m.Consistent) (op : Operation) (comm : CommId) :
    m.eventsOf comm op = eventsBetween (framesOn comm (m.step op).frames) (m.models.get? comm)
      ((m.step op).manager.models.get? comm) := by
  simp only [eventsOf, h.reply_opened_iff]
  cases hb : m.models.get? comm <;> cases ha : (m.step op).manager.models.get? comm <;>
    simp [eventsBetween, OrdMap.contains, hb, ha]

/-- What is left to happen on a comm, in whole lives, the first of which is under way if the comm is live. -/
def Unfolds (m : Manager) (comm : CommId) (ops : List Operation) : Option Model → Prop
  | none => ∃ lives, m.history comm ops = lives.flatMap (CommLife.events comm) ∧
      CommLife.Chain lives ((m.run ops).1.models.contains comm)
  | some _ => ∃ life lives,
      m.history comm ops = life.tail comm ++ lives.flatMap (CommLife.events comm) ∧
      CommLife.Chain (life :: lives) ((m.run ops).1.models.contains comm)

/-- What an operation does comes before what happens later, in the same life or as a life of its own. -/
theorem Fate.unfolds {before after : Option Model} {frames : List Frame} {rest : List Operation}
    (hf : Fate m op comm before after frames) (he : m.eventsOf comm op = eventsBetween frames before after)
    (hid : ∀ model, before = some model → model.id = comm)
    (hrest : (m.step op).manager.Unfolds comm rest after) : m.Unfolds comm (op :: rest) before := by
  have hhistory : m.history comm (op :: rest) =
      eventsBetween frames before after ++ (m.step op).manager.history comm rest := by
    rw [history, he]
  cases hf with
  | absent =>
    obtain ⟨lives, hl, hc⟩ := hrest
    exact ⟨lives, hhistory.trans hl, hc⟩
  | opened hop hc ho hfirst =>
    obtain ⟨life, lives, hl, hc⟩ := hrest
    refine ⟨life :: lives, ?_, hc⟩
    rw [hhistory, hl]
    rfl
  | @asked model r hr =>
    obtain ⟨life, lives, hl, hc⟩ := hrest
    rcases model.ask_frames r with hnone | ⟨data, callbacks, hone⟩
    · refine ⟨life, lives, ?_, hc⟩
      rw [hhistory, hl, hnone]
      rfl
    · -- The message is the first of those that the life still holds.
      let longer : CommLife := { life with messages := (data, callbacks) :: life.messages }
      refine ⟨longer, lives, ?_, hc.of_ending rfl⟩
      rw [hhistory, hl, hone, hid model rfl]
      rfl
  | kept hr hs hv hd =>
    obtain ⟨life, lives, hl, hc⟩ := hrest
    exact ⟨life, lives, hhistory.trans hl, hc⟩
  | exhausted hop hv hgone =>
    obtain ⟨lives, hl, hc⟩ := hrest
    -- The life under way is over, and other lives are all that is left.
    refine ⟨⟨[], .byPage⟩, lives, ?_, hc.cons_ended nofun⟩
    rw [hhistory, hl]
    rfl
  | ended hop =>
    obtain ⟨lives, hl, hc⟩ := hrest
    refine ⟨⟨[], .byBackend⟩, lives, ?_, hc.cons_ended nofun⟩
    rw [hhistory, hl]
    rfl

theorem Consistent.id_of_live (h : m.Consistent) {model : Model}
    (hm : m.models.get? comm = some model) : model.id = comm := by
  rw [Model.id, h.opened comm model hm]
  rfl

theorem Consistent.unfolds (h : m.Consistent) (comm : CommId) (ops : List Operation) :
    m.Unfolds comm ops (m.models.get? comm) := by
  induction ops generalizing m with
  | nil =>
    -- Nothing happens, in no life or in the one under way.
    cases hm : m.models.get? comm with
    | none =>
      refine ⟨[], rfl, List.Pairwise.nil, ?_⟩
      simp [Manager.run, OrdMap.contains, hm]
    | some model =>
      refine ⟨⟨[], .ongoing⟩, [], rfl, List.pairwise_singleton _ _, ?_⟩
      simp [Manager.run, OrdMap.contains, hm]
  | cons op rest ih =>
    exact (h.fate op comm).unfolds (h.eventsOf_eq op comm) (fun _ hm => h.id_of_live hm) (ih (h.step op))

/-! ### Views of a life -/

/-- A model that has views keeps some as long as it lives. -/
theorem Consistent.views_ne_nil_step (h : m.Consistent) {model model' : Model}
    (hm : m.models.get? comm = some model) (hm' : (m.step op).manager.models.get? comm = some model')
    (hv : model.views ≠ []) : model'.views ≠ [] := by
  have hfate := h.fate op comm
  rw [hm, hm'] at hfate
  generalize framesOn comm (m.step op).frames = frames at hfate
  cases hfate with
  | asked hr =>
    rw [Model.ask_views]
    exact hv
  | kept hr hs hkeep hd =>
    obtain ⟨view, _, hview⟩ := hkeep hv
    exact List.ne_nil_of_mem hview

theorem Consistent.views_ne_nil_run (h : m.Consistent) {ops : List Operation} {model model' : Model}
    (hlive : ∀ done, done <+: ops → (m.run done).1.models.contains comm = true)
    (hm : m.models.get? comm = some model) (hm' : (m.run ops).1.models.get? comm = some model')
    (hv : model.views ≠ []) : model'.views ≠ [] := by
  induction ops generalizing m model with
  | nil =>
    obtain rfl : model = model' := Option.some.inj (hm.symm.trans hm')
    exact hv
  | cons op rest ih =>
    obtain ⟨between, hmid⟩ := OrdMap.contains_iff.mp (hlive [op] (by simp))
    have hrest : ∀ done, done <+: rest →
        ((m.step op).manager.run done).1.models.contains comm = true := by
      intro done hd
      exact hlive (op :: done) (List.cons_prefix_cons.mpr ⟨rfl, hd⟩)
    have hbetween : between.views ≠ [] := h.views_ne_nil_step hm hmid hv
    exact ih (h.step op) hrest hmid hm' hbetween

theorem Consistent.views_of_displayed (h : m.Consistent) {model' : Model}
    (hd : m.displayed? op = some comm) (hm' : (m.step op).manager.models.get? comm = some model') :
    model'.views ≠ [] := by
  have hfate := h.fate op comm
  rw [hm'] at hfate
  generalize m.models.get? comm = before, framesOn comm (m.step op).frames = frames at hfate
  cases hfate with
  | opened hop =>
    rw [hop] at hd
    contradiction
  | asked hr =>
    rw [displayed?_of_request (request_of_requestOn hr)] at hd
    contradiction
  | kept hr hs hkeep hshown => exact hshown hd

/-- The page closes a comm when the last view of its model goes, unless the backend closes the comm. -/
theorem Consistent.close_mem_iff (h : m.Consistent) (op : Operation) (comm : CommId) :
    .close comm ∈ (m.step op).frames ↔ op ≠ .closeComm comm ∧
      ∃ model, m.models.get? comm = some model ∧ model.views ≠ [] ∧
        ∀ view ∈ model.views, (m.step op).manager.views.get? view = none := by
  have hmem : .close comm ∈ (m.step op).frames ↔ .close comm ∈ framesOn comm (m.step op).frames := by
    rw [framesOn, List.mem_filter]
    simp [Frame.comm]
  -- A view that the model lists afterwards has not gone.
  have hstays {model' : Model} (hm' : (m.step op).manager.models.get? comm = some model') {view : ViewId}
      (hv : view ∈ model'.views) : (m.step op).manager.views.get? view ≠ none :=
    fun hgone => (h.step op).not_listed_of_dead hgone hm' hv
  have hfate := h.fate op comm
  rw [hmem]
  generalize m.models.get? comm = before, (m.step op).manager.models.get? comm = after,
    framesOn comm (m.step op).frames = frames at hfate hstays ⊢
  cases hfate with
  | absent => simp
  | opened hop hc ho hf => simp
  | @asked model r hr =>
    constructor
    · intro hclose
      obtain ⟨data, callbacks, he⟩ := Model.message_of_mem_ask hclose
      contradiction
    · rintro ⟨_, _, he, hv, hgone⟩
      obtain rfl := Option.some.inj he
      obtain ⟨view, hview⟩ := List.exists_mem_of_ne_nil _ hv
      have hkept : view ∈ (model.ask r).1.views := by
        rw [Model.ask_views]
        exact hview
      exact absurd (hgone view hview) (hstays rfl hkept)
  | @kept model model' hr hs hkeep hd =>
    constructor
    · intro hclose
      exact absurd hclose List.not_mem_nil
    · rintro ⟨_, _, he, hv, hgone⟩
      obtain rfl := Option.some.inj he
      obtain ⟨view, hview, hkept⟩ := hkeep hv
      exact absurd (hgone view hview) (hstays rfl hkept)
  | @exhausted model hop hv hgone =>
    constructor
    · intro _
      exact ⟨hop, model, rfl, hv, hgone⟩
    · intro _
      exact List.mem_singleton_self _
  | ended hop =>
    constructor
    · intro hclose
      exact absurd hclose List.not_mem_nil
    · rintro ⟨hne, _⟩
      exact absurd hop hne

/-- No frame is sent on a dead comm. -/
theorem Consistent.frames_of_dead (h : m.Consistent) (hd : m.models.get? comm = none) (op : Operation) :
    framesOn comm (m.step op).frames = [] := by
  have hfate := h.fate op comm
  rw [hd] at hfate
  generalize framesOn comm (m.step op).frames = frames,
    (m.step op).manager.models.get? comm = after at hfate
  cases hfate with
  | absent => rfl
  | opened => rfl

/-- In every run from a new manager the frames on a comm fall into lives. Each begins when the comm is opened while
it has no model, holds messages, and ends with the one close that the page sends, or with none when the backend
closes the comm; only the last may go on, as it does if the comm is live. -/
theorem frames_fall_into_lives (notebook : Notebook) (throttle : Nat) (comm : CommId)
    (ops : List Operation) :
    let start := new notebook throttle
    let m := (start.run ops).1
    (∃ lives : List CommLife, start.history comm ops = lives.flatMap (CommLife.events comm) ∧
      (start.history comm ops).filterMap CommEvent.frame? = framesOn comm (start.run ops).2 ∧
      lives.Pairwise (fun first _ => first.ending ≠ .ongoing) ∧
      ((∃ life ∈ lives, life.ending = .ongoing) ↔ m.models.contains comm = true)) ∧
    -- What the next operation may do on the comm: open it, if it is dead, and then nothing is sent;
    (∀ op, (m.step op).reply = .ok (.opened comm) ↔
      m.models.get? comm = none ∧ (m.step op).manager.models.contains comm = true) ∧
    (m.models.get? comm = none → ∀ op, framesOn comm (m.step op).frames = []) ∧
    -- or close it, when the last view of its model goes and the backend did not close it.
    (∀ op, .close comm ∈ (m.step op).frames ↔ op ≠ .closeComm comm ∧
      ∃ model, m.models.get? comm = some model ∧ model.views ≠ [] ∧
        ∀ view ∈ model.views, (m.step op).manager.views.get? view = none) ∧
    (∀ model, m.models.get? comm = some model → model.comm.isClosed = false ∧
      model.comm.delivers = true) ∧
    -- From the time it is displayed on, a model has views as long as it lives.
    ∀ op more, m.displayed? op = some comm →
      (∀ done, done <+: more → ((m.step op).manager.run done).1.models.contains comm = true) →
      ∃ model, ((m.step op).manager.run more).1.models.get? comm = some model ∧ model.views ≠ [] := by
  intro start m
  have hstart : start.Consistent := new_consistent notebook throttle
  have h : m.Consistent := hstart.run ops
  refine ⟨?_, fun op => h.reply_opened_iff op comm, fun hd op => h.frames_of_dead hd op,
    fun op => h.close_mem_iff op comm, fun model hm => ?_, fun op more hd hlive => ?_⟩
  · obtain ⟨lives, hl, hc⟩ := hstart.unfolds comm ops
    exact ⟨lives, hl, frames_of_history start comm ops, hc.ended, hc.ongoing_iff⟩
  · rw [h.opened comm model hm]
    exact ⟨rfl, rfl⟩
  · obtain ⟨shown, hshown⟩ := OrdMap.contains_iff.mp (hlive [] (List.nil_prefix))
    obtain ⟨model, hm⟩ := OrdMap.contains_iff.mp (hlive more (List.prefix_refl more))
    have hviews : shown.views ≠ [] := h.views_of_displayed hd hshown
    exact ⟨model, hm, (h.step op).views_ne_nil_run hlive hshown hm hviews⟩

end Manager

end WidgetSync
