import WidgetSync.Proofs.Model.Delivery
import WidgetSync.Proofs.Model.Registration

/-! What is asked of a model about its state, by a view or by the backend. A request is a few operations in a row;
it sends one message at most, on the model's own comm, and the views of the model are none of its business. -/
namespace WidgetSync

inductive Request where
  /-- A view changes attributes. -/
  | change (view : ViewId) (changes : Attributes)
  /-- A view sends application data. -/
  | custom (view : ViewId) (content : Value)
  /-- The backend updates attributes. -/
  | remote (state : Attributes)
  | status (report : StatusMessage)
  deriving DecidableEq

def Request.operations : Request → List ModelOperation
  | .change view changes => [.setLastModified view, .set changes, .requestSync changes true]
  | .custom view content => [.setLastModified view, .sendCustom content]
  | .remote state => [.applyRemote state]
  | .status report => [.status report]

namespace Model

/-- What a model holds, without its views. -/
def content (m : Model) :
    String × Comm × Attributes × Css × Nat × Nat × Option Attributes × Bool :=
  (m.typeName, m.comm, m.attributes, m.css, m.pending, m.throttle, m.buffer, m.updating)

theorem content_enroll (m : Model) (group : GroupKey) (id : ViewId) :
    (m.enroll group id).content = m.content := by
  rw [enroll, subscribe_eq]
  rfl

def ask (m : Model) (r : Request) : Model × List Frame := m.run r.operations

theorem ask_change (m : Model) (view : ViewId) (changes : Attributes) :
    m.ask (.change view changes) =
      ((m.setLastModified view).set changes).requestSync changes true := by
  simp only [ask, Request.operations, run, step, List.nil_append, List.append_nil]

theorem ask_custom (m : Model) (view : ViewId) (content : Value) :
    m.ask (.custom view content) =
      (m.setLastModified view, (m.setLastModified view).sendCustom content) := by
  simp only [ask, Request.operations, run, step, List.nil_append, List.append_nil]

theorem ask_remote (m : Model) (state : Attributes) :
    m.ask (.remote state) = ((m.applyRemote state).1, []) := by
  simp only [ask, Request.operations, run, step, List.append_nil]

theorem ask_status (m : Model) (report : StatusMessage) :
    m.ask (.status report) = m.handleStatus report := by
  simp only [ask, Request.operations, run, step, List.append_nil]

/-- An idle backend is sent what waits, or nothing. -/
theorem onIdle_frames (m : Model) :
    m.onIdle.2 = [] ∨ ∃ waiting, m.buffer = some waiting ∧
      m.onIdle.2 = [.message m.id (.patch waiting) ⟨m.outputGroup⟩] := by
  by_cases hc : m.pending = m.throttle ∧ m.isWaiting = true
  · by_cases hd : m.comm.delivers = true
    · obtain ⟨waiting, hb, hw⟩ := isWaiting_iff.mp hc.2
      refine .inr ⟨waiting, hb, ?_⟩
      rw [onIdle_of_flush hc.1 hb hw hd]
    · rw [Bool.not_eq_true] at hd
      rw [onIdle_of_lost hc.1 hc.2 hd]
      exact .inl rfl
  · rw [onIdle_of_release hc]
    exact .inl rfl

/-- A request sends one message at most. -/
theorem ask_frames (m : Model) (r : Request) :
    (m.ask r).2 = [] ∨ ∃ data callbacks, (m.ask r).2 = [.message m.id data callbacks] := by
  cases r with
  | change view changes =>
    rw [ask_change]
    rcases ((m.setLastModified view).set changes).requestSync_cases changes true with
      he | ⟨_, he⟩ | ⟨_, he⟩ <;> rw [he]
    · exact .inl rfl
    · exact .inl rfl
    · exact .inr ⟨_, _, rfl⟩
  | custom view content =>
    rw [ask_custom]
    by_cases hd : (m.setLastModified view).comm.delivers = true
    · rw [sendCustom_of_delivers hd]
      exact .inr ⟨_, _, rfl⟩
    · rw [Bool.not_eq_true] at hd
      rw [sendCustom_of_not_delivers hd]
      exact .inl rfl
  | remote state =>
    rw [ask_remote]
    exact .inl rfl
  | status report =>
    rw [ask_status]
    by_cases hi : report.state = .idle
    · have he : m.handleStatus report = m.onIdle := by rw [handleStatus, hi]
      rw [he]
      rcases m.onIdle_frames with hf | ⟨waiting, _, hf⟩
      · exact .inl hf
      · exact .inr ⟨_, _, hf⟩
    · rw [handleStatus_of_ne_idle hi]
      exact .inl rfl

/-- What a request sends are messages on the model's comm. -/
theorem message_of_mem_ask {m : Model} {r : Request} {f : Frame} (hf : f ∈ (m.ask r).2) :
    ∃ data callbacks, f = .message m.id data callbacks := by
  rcases m.ask_frames r with he | ⟨data, callbacks, he⟩ <;> rw [he] at hf
  · exact absurd hf List.not_mem_nil
  · exact ⟨data, callbacks, List.mem_singleton.mp hf⟩

/-! ### Slots -/

theorem idleCount_operations (r : Request) :
    idleCount r.operations = if r = .status ⟨.idle⟩ then 1 else 0 := by
  cases r with
  | change view changes => simp [idleCount, Request.operations]
  | custom view content => simp [idleCount, Request.operations]
  | remote state => simp [idleCount, Request.operations]
  | status report => simp [idleCount, Request.operations, List.count_singleton]

theorem ask_syncs (m : Model) (r : Request) :
    (m.ask r).2.countP Frame.isSync + m.pending ≤
      (m.ask r).1.pending + if r = .status ⟨.idle⟩ then 1 else 0 := by
  rw [← idleCount_operations]
  exact m.run_syncs r.operations

/-- A slot is taken only by a frame that carries state, and an idle report frees one unless such a frame takes it. -/
theorem ask_pending_le {m : Model} (hd : m.comm.delivers = true) (r : Request) :
    (m.ask r).1.pending ≤
      m.pending + (m.ask r).2.countP Frame.isSync - if r = .status ⟨.idle⟩ then 1 else 0 := by
  cases r with
  | change view changes =>
    have hpending : ((m.setLastModified view).set changes).pending = m.pending := rfl
    rw [ask_change, if_neg nofun]
    rcases ((m.setLastModified view).set changes).requestSync_cases changes true with
      he | ⟨_, he⟩ | ⟨_, he⟩ <;> rw [he]
    · exact Nat.le_add_right _ _
    · exact Nat.le_add_right _ _
    · exact Nat.le_of_eq (congrArg (· + 1) hpending)
  | custom view content =>
    rw [ask_custom, if_neg nofun]
    exact Nat.le_add_right _ _
  | remote state =>
    have hquiet : (ModelOperation.applyRemote state).isQuiet = true := rfl
    have hpending : (m.applyRemote state).1.pending = m.pending := (m.step_of_quiet hquiet).1
    rw [ask_remote, if_neg nofun, hpending]
    exact Nat.le_add_right _ _
  | status report =>
    rw [ask_status]
    by_cases hi : report = ⟨.idle⟩
    · rw [hi, if_pos rfl, handleStatus_idle]
      by_cases hc : m.pending = m.throttle ∧ m.isWaiting = true
      · -- What waits takes the slot.
        obtain ⟨waiting, hb, hw⟩ := isWaiting_iff.mp hc.2
        rw [onIdle_of_flush hc.1 hb hw hd]
        exact Nat.le_refl _
      · rw [onIdle_of_release hc]
        exact Nat.le_refl _
    · have hstate : report.state ≠ .idle := fun he => hi (by rw [← he])
      have hne : Request.status report ≠ .status ⟨.idle⟩ := fun he => hi (Request.status.inj he)
      rw [handleStatus_of_ne_idle hstate, if_neg hne]
      exact Nat.le_add_right _ _

end Model

end WidgetSync
