import WidgetSync.Session
import WidgetSync.Proofs.Manager.Procedure
import WidgetSync.Proofs.Manager.Update

/-! Failures leave no trace. What fails changes nothing and sends nothing, but for updates with faulty styles, which
take effect all the same; so a session says as much without the events that fail and those that are ignored. -/
namespace WidgetSync

theorem Outcome.ofExcept_of_error {α : Type} {m : Manager} {result : Except ManagerError α}
    {success : α → Manager × List Frame × Reply} {e : ManagerError}
    (he : (ofExcept m result success).reply = .error e) :
    (ofExcept m result success).manager = m ∧ (ofExcept m result success).frames = [] := by
  cases result with
  | error _ => exact ⟨rfl, rfl⟩
  | ok a => contradiction

namespace Manager

/-- The one failure that takes effect: a live model is updated, with styles that are none. -/
def FaultyUpdate (m : Manager) (op : Operation) (e : ManagerError) : Prop :=
  ∃ comm state css culprit, m.request op = some (comm, .remote state) ∧ state.get? cssKey = some css ∧
    (∀ parsed, ¬Css.Denotes css parsed) ∧ e = .badState (.malformedCss css culprit)

/-- Messages for no model or of no known form, and reports, output and closes for no model. -/
def ignores (m : Manager) : Operation → Bool
  | .message message => !m.models.contains message.comm || (ModelMessage.ofJson? message.data).isNone
  | .status comm _ => !m.models.contains comm
  | .output comm _ => !m.models.contains comm
  | .closeComm comm => !m.models.contains comm
  | _ => false

variable {m : Manager} {op : Operation} {e : ManagerError}

theorem step_update_of_error {comm : CommId} {state : Attributes}
    (he : (m.step (.update comm state)).reply = .error e) :
    m.FaultyUpdate (.update comm state) e ∨ (m.step (.update comm state)).manager = m := by
  cases hm : m.models.get? comm with
  | none =>
    right
    simp only [step, update, hm, Outcome.silent]
  | some model =>
    left
    rw [step_update hm] at he
    rcases model.applyRemote_styles state with
      ⟨_, _, hr⟩ | ⟨v, css, _, _, _, hr⟩ | ⟨v, culprit, hv, hnot, _, hr⟩ <;> rw [hr] at he
    · contradiction
    · contradiction
    · exact ⟨comm, state, v, culprit, request_update hm state, hv, hnot, (Except.error.inj he).symm⟩

/-- A message does what the display or the update does that it stands for, or nothing. -/
theorem step_message_of_error {message : CommMessage} (he : (m.step (.message message)).reply = .error e) :
    m.FaultyUpdate (.message message) e ∨ (m.step (.message message)).manager = m := by
  by_cases hc : m.models.contains message.comm = true
  · cases hj : ModelMessage.ofJson? message.data with
    | none =>
      simp [step, Manager.message, hc, hj, Outcome.silent, Except.map] at he
    | some data =>
      cases data with
      | display viewName parent cell =>
        right
        cases hd : m.display message.comm viewName parent (m.resolveGroup cell message.parentMessage) with
        | error e => simp [step, Manager.message, hc, hj, hd, Outcome.silent]
        | ok shown => simp [step, Manager.message, hc, hj, hd, Outcome.silent, Except.map] at he
      | update state =>
        have hstep : m.step (.message message) = m.step (.update message.comm state) := by
          simp [step, Manager.message, hc, hj]
        obtain ⟨model, hm⟩ := OrdMap.contains_iff.mp hc
        have hrequest : m.request (.message message) = m.request (.update message.comm state) := by
          rw [request_message hm hj, request_update hm]
        rw [hstep] at he ⊢
        rw [FaultyUpdate, hrequest]
        exact step_update_of_error he
  · simp [step, Manager.message, hc, Outcome.silent, Except.map] at he

theorem step_of_error (hop : op ≠ .registerDefaults) (he : (m.step op).reply = .error e) :
    m.FaultyUpdate op e ∨ ((m.step op).manager = m ∧ (m.step op).frames = []) := by
  cases op with
  | registerDefaults => contradiction
  | message message => exact (step_message_of_error he).imp_right fun hm => ⟨hm, rfl⟩
  | update comm state => exact (step_update_of_error he).imp_right fun hm => ⟨hm, rfl⟩
  | status | output | closeComm | removeView => contradiction
  | registerModel | registerView | openComm | execute | display | change | ui | sendCustom =>
    exact .inr (Outcome.ofExcept_of_error he)

theorem step_of_ignores (hi : m.ignores op = true) : m.step op = ⟨m, [], .ok .done⟩ := by
  have hdead {comm : CommId} (hc : (!m.models.contains comm) = true) : m.models.get? comm = none :=
    OrdMap.contains_eq_false_iff.mp (by simpa using hc)
  cases op with
  | message message =>
    simp only [ignores, Bool.or_eq_true] at hi
    rcases hi with hc | hj
    · simp [step, Manager.message, hc, Outcome.silent, Except.map]
    · have hnone := Option.isNone_iff_eq_none.mp hj
      simp only [step, Manager.message, hnone]
      split <;> rfl
  | status comm report => simp only [step, status, hdead hi]
  | output comm text =>
    have hm := hdead hi
    simp [step, output, hm]
  | closeComm comm => rw [step, closeComm_of_dead (hdead hi)]
  | _ => contradiction

/-- An operation that fails without effect, or is ignored. -/
def isVoid (m : Manager) (op : Operation) : Bool :=
  match (m.step op).reply with
  | .error (.badState _) => false
  | .error _ => true
  | .ok _ => m.ignores op

theorem step_of_isVoid (hop : op ≠ .registerDefaults) (hv : m.isVoid op = true) :
    (m.step op).manager = m ∧ (m.step op).frames = [] := by
  rw [isVoid] at hv
  split at hv
  · contradiction
  · next e hnot he =>
    rcases step_of_error hop he with ⟨_, _, _, _, _, _, _, rfl⟩ | hsame
    · exact absurd rfl (hnot _)
    · exact hsame
  · rw [step_of_ignores hv]
    exact ⟨rfl, rfl⟩

end Manager

/-! ### Sessions -/

theorem SessionEvent.operation_ne_registerDefaults (event : SessionEvent) : event.operation ≠ .registerDefaults := by
  cases event <;> exact nofun

namespace Connection

/-- An event that fails without effect, or is ignored. Without a manager every event fails. -/
def isVoid (c : Connection) (event : SessionEvent) : Bool := c.manager.all (·.isVoid event.operation)

/-- The events of a session without those that are void when their turn comes. -/
def heeded (c : Connection) : List SessionEvent → List SessionEvent
  | [] => []
  | event :: rest =>
    if c.isVoid event then (c.process event).1.heeded rest else event :: (c.process event).1.heeded rest

variable {c : Connection} {event : SessionEvent}

theorem run_cons (c : Connection) (event : SessionEvent) (rest : List SessionEvent) :
    c.run (event :: rest) =
      (((c.process event).1.run rest).1, (c.process event).2 ++ ((c.process event).1.run rest).2) := rfl

theorem outbox_process (c : Connection) (event : SessionEvent) : (c.process event).1.outbox = [] := rfl

theorem process_of_isVoid (ho : c.outbox = []) (hv : c.isVoid event = true) : c.process event = (c, []) := by
  obtain ⟨throttle, manager, outbox⟩ := c
  obtain rfl : outbox = [] := ho
  cases manager with
  | none => rfl
  | some m =>
    obtain ⟨hmanager, hframes⟩ := Manager.step_of_isVoid event.operation_ne_registerDefaults hv
    simp only [process, perform, hmanager, hframes, List.append_nil]

theorem run_heeded (ho : c.outbox = []) (events : List SessionEvent) : c.run (c.heeded events) = c.run events := by
  induction events generalizing c with
  | nil => rfl
  | cons event rest ih =>
    have hrest := ih (c.outbox_process event)
    rw [heeded]
    by_cases hv : c.isVoid event = true
    · rw [process_of_isVoid ho hv] at hrest
      rw [if_pos hv, run_cons, process_of_isVoid ho hv]
      exact hrest
    · rw [if_neg hv, run_cons, run_cons, hrest]

end Connection

namespace Manager

/-- Whatever state the manager is in: an operation that fails, one statement after another, has changed nothing and sent
nothing, unless it is an update with faulty styles; and what is ignored does nothing. So a session comes to the same
without all that fails or is ignored. -/
theorem failures_leave_no_trace :
    (∀ (m : Manager) (op : Operation) (p : Procedure Reply), op.procedure? = some p →
      p.outcome m = m.step op ∧ ∀ e, (p.outcome m).reply = .error e →
        m.FaultyUpdate op e ∨ ((p.outcome m).manager = m ∧ (p.outcome m).frames = [])) ∧
    (∀ (m : Manager) (op : Operation), m.ignores op = true → m.step op = ⟨m, [], .ok .done⟩) ∧
    ∀ (throttle : Nat) (manager : Option Manager) (events : List SessionEvent),
      let c : Connection := ⟨throttle, manager, []⟩
      c.run (c.heeded events) = c.run events := by
  refine ⟨fun m op p hp => ?_, fun m op hi => step_of_ignores hi, fun throttle manager events => ?_⟩
  · have heq := Procedure.outcome_of_procedure? m hp
    refine ⟨heq, fun e he => ?_⟩
    rw [heq] at he ⊢
    refine step_of_error ?_ he
    rintro rfl
    contradiction
  · exact Connection.run_heeded rfl events

/-- A comm that is open already, a view that is not there, and a close of nothing are not heeded. -/
example :
    let opening : SessionEvent := .commOpen ⟨⟨"c"⟩, "BoolWidgetModel"⟩
    ((Connection.new 3).install (.withCells 1)).heeded
      [opening, opening, .ui ⟨7⟩ .click, .commClose ⟨"d"⟩, .commClose ⟨"c"⟩] = [opening, .commClose ⟨"c"⟩] := by
  decide +kernel

end Manager

end WidgetSync
