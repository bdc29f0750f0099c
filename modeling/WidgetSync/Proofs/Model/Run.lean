import WidgetSync.Model.Kind
import WidgetSync.Proofs.OrdMap

/-! Runs of one model: everything that can be asked of it as a step, the frames that a run sends, and one
equation for each case of sending, throttling and flushing. -/
namespace WidgetSync

inductive ModelOperation where
  | set (changes : Attributes)
  | requestSync (changed : Attributes) (patch : Bool)
  | sendCustom (content : Value)
  | status (report : StatusMessage)
  | applyRemote (state : Attributes)
  | subscribe (view : ViewId)
  | unsubscribe (view : ViewId)
  | addView (group : GroupKey) (view : ViewId)
  | removeView (view : ViewId)
  | setLastModified (view : ViewId)
  | closeComm
  /-- The channel loses its reader. -/
  | disconnect
  deriving DecidableEq

namespace Model

def step (m : Model) : ModelOperation → Model × List Frame
  | .set changes => (m.set changes, [])
  | .requestSync changed patch => m.requestSync changed patch
  | .sendCustom content => (m, m.sendCustom content)
  | .status report => m.handleStatus report
  | .applyRemote state => ((m.applyRemote state).1, [])
  | .subscribe view => (m.subscribe view, [])
  | .unsubscribe view => (m.unsubscribe view, [])
  | .addView group view => (m.addView group view, [])
  | .removeView view => ((m.removeView view).1, [])
  | .setLastModified view => (m.setLastModified view, [])
  | .closeComm => m.closeComm
  | .disconnect => (m.disconnect, [])

/-- The model after the operations, and all frames that they sent. -/
def run (m : Model) : List ModelOperation → Model × List Frame
  | [] => (m, [])
  | op :: rest =>
    let (m, frames) := m.step op
    let (m, more) := m.run rest
    (m, frames ++ more)

theorem run_cons (m : Model) (op : ModelOperation) (rest : List ModelOperation) :
    m.run (op :: rest) =
      (((m.step op).1.run rest).1, (m.step op).2 ++ ((m.step op).1.run rest).2) := rfl

theorem run_append (m : Model) (ops more : List ModelOperation) :
    m.run (ops ++ more) =
      (((m.run ops).1.run more).1, (m.run ops).2 ++ ((m.run ops).1.run more).2) := by
  induction ops generalizing m with
  | nil => rfl
  | cons op rest ih => simp only [List.cons_append, run_cons, ih, List.append_assoc]

/-! ### Sending -/

theorem send_of_delivers {m : Model} (h : m.comm.delivers = true) (data : SyncMessage) :
    m.send data = .ok (.message m.id data ⟨m.outputGroup⟩) := by
  obtain ⟨hc, hr⟩ : m.comm.isClosed = false ∧ m.comm.hasReader = true := by
    simpa [Comm.delivers] using h
  simp [send, Comm.send, hc, hr, id]

theorem send_of_not_delivers {m : Model} (h : m.comm.delivers = false) (data : SyncMessage) :
    ∃ e, m.send data = .error e := by
  simp only [send, Comm.send]
  split
  · exact ⟨_, rfl⟩
  · next hc =>
    have hr : m.comm.hasReader = false := by
      simpa [Comm.delivers, hc] using h
    simp [hr]

theorem requestSync_of_updating {m : Model} (h : m.updating = true) (changed : Attributes)
    (patch : Bool) : m.requestSync changed patch = (m, []) := by
  simp [requestSync, h]

/-- At the throttle a change joins those that wait. -/
theorem requestSync_of_throttled {m : Model} (hu : m.updating = false)
    (ht : m.throttle ≤ m.pending) (changed : Attributes) (patch : Bool) :
    m.requestSync changed patch =
      ({ m with buffer := some (Throttle.join m.buffer changed m.attributes patch) }, []) := by
  simp [requestSync, hu, Throttle.mustWait, ht]

/-- Under the throttle a change that can be sent is sent, and counts as in flight. -/
theorem requestSync_of_free {m : Model} (hu : m.updating = false) (ht : m.pending < m.throttle)
    (hd : m.comm.delivers = true) (changed : Attributes) (patch : Bool) :
    m.requestSync changed patch =
      ({ m with pending := m.pending + 1 },
        [.message m.id (if patch then .patch changed else .update m.attributes) ⟨m.outputGroup⟩]) := by
  simp [requestSync, hu, Throttle.mustWait, Nat.not_le.mpr ht, send_of_delivers hd]

/-- A change that cannot be sent is lost, and counts for nothing. -/
theorem requestSync_of_lost {m : Model} (hu : m.updating = false) (ht : m.pending < m.throttle)
    (hd : m.comm.delivers = false) (changed : Attributes) (patch : Bool) :
    m.requestSync changed patch = (m, []) := by
  obtain ⟨e, he⟩ := send_of_not_delivers hd (if patch then .patch changed else .update m.attributes)
  simp [requestSync, hu, Throttle.mustWait, Nat.not_le.mpr ht, he]

/-- A request for a sync does one of four things. -/
theorem requestSync_cases (m : Model) (changed : Attributes) (patch : Bool) :
    m.requestSync changed patch = (m, []) ∨
    (m.throttle ≤ m.pending ∧ m.requestSync changed patch =
      ({ m with buffer := some (Throttle.join m.buffer changed m.attributes patch) }, [])) ∨
    (m.pending < m.throttle ∧ m.requestSync changed patch =
      ({ m with pending := m.pending + 1 },
        [.message m.id (if patch then .patch changed else .update m.attributes) ⟨m.outputGroup⟩])) := by
  by_cases hu : m.updating = true
  · -- Nothing is echoed while an update of the backend is applied.
    exact .inl (requestSync_of_updating hu changed patch)
  · rw [Bool.not_eq_true] at hu
    rcases Nat.lt_or_ge m.pending m.throttle with ht | ht
    · by_cases hd : m.comm.delivers = true
      · exact .inr (.inr ⟨ht, requestSync_of_free hu ht hd changed patch⟩)
      · rw [Bool.not_eq_true] at hd
        exact .inl (requestSync_of_lost hu ht hd changed patch)
    · exact .inr (.inl ⟨ht, requestSync_of_throttled hu ht changed patch⟩)

theorem sendCustom_of_delivers {m : Model} (h : m.comm.delivers = true) (content : Value) :
    m.sendCustom content = [.message m.id (.custom content) ⟨m.outputGroup⟩] := by
  rw [sendCustom, send_of_delivers h]

theorem sendCustom_of_not_delivers {m : Model} (h : m.comm.delivers = false) (content : Value) :
    m.sendCustom content = [] := by
  obtain ⟨e, he⟩ := send_of_not_delivers h (.custom content)
  rw [sendCustom, he]

/-! ### Idle backends -/

theorem isWaiting_iff {m : Model} :
    m.isWaiting = true ↔ ∃ waiting, m.buffer = some waiting ∧ waiting.isEmpty = false := by
  cases hb : m.buffer <;> simp [isWaiting, hb]

theorem onIdle_of_release {m : Model} (h : ¬(m.pending = m.throttle ∧ m.isWaiting = true)) :
    m.onIdle = ({ m with pending := m.pending - 1 }, []) := by
  simp [onIdle, Throttle.onIdle, h]

/-- What waits at the throttle goes out as one patch, in the slot that became free. -/
theorem onIdle_of_flush {m : Model} {waiting : Attributes} (hp : m.pending = m.throttle)
    (hb : m.buffer = some waiting) (hw : waiting.isEmpty = false) (hd : m.comm.delivers = true) :
    m.onIdle = ({ m with buffer := none }, [.message m.id (.patch waiting) ⟨m.outputGroup⟩]) := by
  have hi : m.isWaiting = true := isWaiting_iff.mpr ⟨waiting, hb, hw⟩
  simp [onIdle, Throttle.onIdle, hp, hi, hb, send_of_delivers hd]

/-- What cannot be flushed is lost. -/
theorem onIdle_of_lost {m : Model} (hp : m.pending = m.throttle) (hw : m.isWaiting = true)
    (hd : m.comm.delivers = false) : m.onIdle = ({ m with buffer := none }, []) := by
  obtain ⟨e, he⟩ := send_of_not_delivers hd (.patch (m.buffer.getD ∅))
  simp [onIdle, Throttle.onIdle, hp, hw, he]

theorem handleStatus_idle (m : Model) : m.handleStatus ⟨.idle⟩ = m.onIdle := rfl

theorem handleStatus_of_ne_idle {m : Model} {report : StatusMessage} (h : report.state ≠ .idle) :
    m.handleStatus report = (m, []) := by
  cases hs : report.state with
  | idle => exact absurd hs h
  | busy => simp [handleStatus, hs]
  | starting => simp [handleStatus, hs]

end Model

end WidgetSync
