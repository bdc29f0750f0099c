import WidgetSync.Proofs.Model.Run

/-! The throttle of one model. A change waits only while the slots for messages are all taken, so that
nothing sent later can overtake it, and every frame that carries state is paid for by a slot or by an idle
backend. -/
namespace WidgetSync

/-- A frame that carries state: a patch, or the whole of it. -/
def Frame.isSync : Frame → Bool
  | .message _ (.update _) _ => true
  | .message _ (.patch _) _ => true
  | .message _ (.custom _) _ => false
  | .close _ => false

/-- How many of the operations report an idle backend. -/
def idleCount (ops : List ModelOperation) : Nat := ops.count (.status ⟨.idle⟩)

namespace ModelOperation

/-- An operation that neither tells the backend of changes nor frees a slot. -/
def isQuiet : ModelOperation → Bool
  | .requestSync _ _ => false
  | .status report => report.state ≠ .idle
  | _ => true

theorem kinds (op : ModelOperation) : (∃ changed patch, op = .requestSync changed patch) ∨
    op = .status ⟨.idle⟩ ∨ op.isQuiet = true := by
  cases op with
  | requestSync changed patch => exact .inl ⟨changed, patch, rfl⟩
  | status report =>
    by_cases hi : report.state = .idle
    · refine .inr (.inl ?_)
      rw [← hi]
    · exact .inr (.inr (decide_eq_true hi))
  | _ => exact .inr (.inr rfl)

end ModelOperation

namespace Model

/-- How many messages are in flight, and when changes wait. -/
structure Bounded (m : Model) : Prop where
  pending_le : m.pending ≤ m.throttle
  /-- Only at the throttle does anything wait. -/
  saturated : m.isWaiting = true → m.pending = m.throttle

/-- Operations that touch neither the slots nor the waiting changes keep their bounds. -/
theorem Bounded.of_same {m m' : Model} (h : m.Bounded) (hp : m'.pending = m.pending)
    (ht : m'.throttle = m.throttle) (hb : m'.buffer = m.buffer) : m'.Bounded where
  pending_le := by rw [hp, ht]; exact h.pending_le
  saturated := by
    intro hw
    rw [hp, ht]
    exact h.saturated (by rw [isWaiting, ← hb]; exact hw)

theorem Bounded.not_waiting {m : Model} (h : m.Bounded) (ht : m.pending < m.throttle) :
    m.isWaiting = false := by
  by_contra hw
  rw [Bool.not_eq_false] at hw
  have he := h.saturated hw
  omega

/-- Quiet operations leave the slots and the waiting changes alone. -/
theorem step_of_quiet (m : Model) {op : ModelOperation} (hq : op.isQuiet = true) :
    (m.step op).1.pending = m.pending ∧ (m.step op).1.throttle = m.throttle ∧
      (m.step op).1.buffer = m.buffer ∧ (m.step op).2.countP Frame.isSync = 0 := by
  cases op with
  | requestSync changed patch => exact absurd hq Bool.false_ne_true
  | sendCustom content =>
    refine ⟨rfl, rfl, rfl, ?_⟩
    by_cases hd : m.comm.delivers = true
    · rw [step, sendCustom_of_delivers hd]
      rfl
    · rw [Bool.not_eq_true] at hd
      rw [step, sendCustom_of_not_delivers hd]
      rfl
  | status report =>
    have hne : report.state ≠ .idle := of_decide_eq_true hq
    rw [step, handleStatus_of_ne_idle hne]
    exact ⟨rfl, rfl, rfl, rfl⟩
  | applyRemote state =>
    refine ⟨?_, ?_, ?_, rfl⟩ <;> simp only [step, applyRemote, mergeRemote] <;> split <;> rfl
  | subscribe view =>
    refine ⟨?_, ?_, ?_, rfl⟩ <;> simp only [step, subscribe] <;> split <;> rfl
  | removeView view =>
    refine ⟨?_, ?_, ?_, rfl⟩ <;> simp only [step, removeView] <;> split <;> rfl
  | closeComm =>
    refine ⟨rfl, rfl, rfl, ?_⟩
    simp only [step, closeComm, Comm.close]
    split <;> rfl
  | set changes => exact ⟨rfl, rfl, rfl, rfl⟩
  | unsubscribe view => exact ⟨rfl, rfl, rfl, rfl⟩
  | addView group view => exact ⟨rfl, rfl, rfl, rfl⟩
  | setLastModified view => exact ⟨rfl, rfl, rfl, rfl⟩
  | disconnect => exact ⟨rfl, rfl, rfl, rfl⟩

/-- An idle backend frees a slot, or at the throttle the slot goes to what waits. -/
theorem onIdle_cases (m : Model) :
    (¬(m.pending = m.throttle ∧ m.isWaiting = true) ∧
      m.onIdle = ({ m with pending := m.pending - 1 }, [])) ∨
    (m.pending = m.throttle ∧ ∃ frames : List Frame, frames.length ≤ 1 ∧
      m.onIdle = ({ m with buffer := none }, frames)) := by
  by_cases h : m.pending = m.throttle ∧ m.isWaiting = true
  · refine .inr ⟨h.1, ?_⟩
    by_cases hd : m.comm.delivers = true
    · obtain ⟨waiting, hb, hw⟩ := isWaiting_iff.mp h.2
      exact ⟨[_], Nat.le_refl 1, onIdle_of_flush h.1 hb hw hd⟩
    · rw [Bool.not_eq_true] at hd
      exact ⟨[], Nat.zero_le 1, onIdle_of_lost h.1 h.2 hd⟩
  · exact .inl ⟨h, onIdle_of_release h⟩

/-! ### What each step keeps -/

theorem step_throttle (m : Model) (op : ModelOperation) : (m.step op).1.throttle = m.throttle := by
  rcases op.kinds with ⟨changed, patch, rfl⟩ | rfl | hq
  · rw [step]
    rcases m.requestSync_cases changed patch with h | ⟨_, h⟩ | ⟨_, h⟩ <;> rw [h]
  · rw [step, handleStatus_idle]
    rcases m.onIdle_cases with ⟨_, h⟩ | ⟨_, _, _, h⟩ <;> rw [h]
  · exact (m.step_of_quiet hq).2.1

theorem Bounded.requestSync {m : Model} (h : m.Bounded) (changed : Attributes) (patch : Bool) :
    (m.requestSync changed patch).1.Bounded := by
  rcases m.requestSync_cases changed patch with he | ⟨ht, he⟩ | ⟨ht, he⟩
  · rw [he]
    exact h
  · rw [he]
    exact ⟨h.pending_le, fun _ => Nat.le_antisymm h.pending_le ht⟩
  · rw [he]
    -- Below the throttle nothing waits, and a message sent does not change that.
    refine ⟨ht, fun hw => ?_⟩
    have hn : m.isWaiting = false := h.not_waiting ht
    exact absurd (hn.symm.trans hw) Bool.false_ne_true

theorem Bounded.onIdle {m : Model} (h : m.Bounded) : m.onIdle.1.Bounded := by
  rcases m.onIdle_cases with ⟨hn, he⟩ | ⟨_, frames, _, he⟩
  · rw [he]
    -- Released below the throttle, or at it with nothing waiting: either way nothing waits.
    refine ⟨Nat.le_trans (Nat.sub_le _ _) h.pending_le, fun hw => ?_⟩
    exact absurd ⟨h.saturated hw, hw⟩ hn
  · rw [he]
    exact ⟨h.pending_le, fun hw => absurd hw Bool.false_ne_true⟩

theorem Bounded.step {m : Model} (h : m.Bounded) (op : ModelOperation) : (m.step op).1.Bounded := by
  rcases op.kinds with ⟨changed, patch, rfl⟩ | rfl | hq
  · exact h.requestSync changed patch
  · exact h.onIdle
  · obtain ⟨hp, ht, hb, _⟩ := m.step_of_quiet hq
    exact h.of_same hp ht hb

/-- A frame that carries state takes a slot, or the place of one that an idle backend frees. -/
theorem step_syncs (m : Model) (op : ModelOperation) :
    (m.step op).2.countP Frame.isSync + m.pending ≤ (m.step op).1.pending + idleCount [op] := by
  rcases op.kinds with ⟨changed, patch, rfl⟩ | rfl | hq
  · rw [Model.step]
    rcases m.requestSync_cases changed patch with h | ⟨_, h⟩ | ⟨_, h⟩ <;> rw [h]
    · simp [idleCount]
    · simp [idleCount]
    · -- The one frame is paid for by the slot that it takes.
      have hc := @List.countP_le_length Frame Frame.isSync [Frame.message m.id
        (if patch then .patch changed else .update m.attributes) ⟨m.outputGroup⟩]
      simp only [List.length_singleton] at hc
      simp only
      omega
  · have hone : idleCount [.status ⟨.idle⟩] = 1 := rfl
    rw [Model.step, handleStatus_idle, hone]
    rcases m.onIdle_cases with ⟨_, h⟩ | ⟨_, frames, hl, h⟩ <;> rw [h]
    · -- A report that answers nothing releases nothing, which is why an inequality is all there is.
      show 0 + m.pending ≤ m.pending - 1 + 1
      omega
    · have hc := @List.countP_le_length Frame Frame.isSync frames
      simp only
      omega
  · obtain ⟨hp, _, _, hc⟩ := m.step_of_quiet hq
    omega

/-! ### What a run keeps -/

theorem run_throttle (m : Model) (ops : List ModelOperation) :
    (m.run ops).1.throttle = m.throttle := by
  induction ops generalizing m with
  | nil => rfl
  | cons op rest ih => rw [run_cons, ih, step_throttle]

theorem Bounded.run {m : Model} (h : m.Bounded) (ops : List ModelOperation) :
    (m.run ops).1.Bounded := by
  induction ops generalizing m with
  | nil => exact h
  | cons op rest ih => exact ih (h.step op)

theorem run_syncs (m : Model) (ops : List ModelOperation) :
    (m.run ops).2.countP Frame.isSync + m.pending ≤ (m.run ops).1.pending + idleCount ops := by
  induction ops generalizing m with
  | nil => simp [run, idleCount]
  | cons op rest ih =>
    have hstep := m.step_syncs op
    have hrest := ih (m.step op).1
    have hcount : idleCount (op :: rest) = idleCount [op] + idleCount rest := by
      rw [idleCount, idleCount, idleCount, ← List.count_append]
      rfl
    simp only [run_cons, List.countP_append]
    omega

/-- A new model, whatever its initial attributes. -/
def fresh (typeName : String) (comm : Comm) (defaults : Attributes) (throttle : Nat) : Model :=
  ((Model.new typeName comm).withDefaults defaults).withThrottle throttle

theorem fresh_bounded (typeName : String) (comm : Comm) (defaults : Attributes) (throttle : Nat) :
    (fresh typeName comm defaults throttle).Bounded where
  pending_le := Nat.zero_le throttle
  saturated := fun hw => absurd hw Bool.false_ne_true

/-- In every run of a new model at most `throttle` messages are in flight, changes wait only while that
many are, and the frames that carry state are at most `throttle` more than the idle reports. An idle report
sends at most one frame: what waits, as one patch, while the comm delivers. -/
theorem throttle_bounds_run (typeName : String) (comm : Comm) (defaults : Attributes)
    (throttle : Nat) (ops : List ModelOperation) :
    ∃ after frames, (fresh typeName comm defaults throttle).run ops = (after, frames) ∧
      after.pending ≤ throttle ∧
      (∀ waiting, after.buffer = some waiting → waiting.isEmpty = false →
        after.pending = throttle) ∧
      frames.countP Frame.isSync ≤ throttle + idleCount ops ∧
      (after.step (.status ⟨.idle⟩)).2.countP Frame.isSync ≤ 1 ∧
      ∀ waiting, after.buffer = some waiting → waiting.isEmpty = false →
        after.comm.delivers = true →
        after.step (.status ⟨.idle⟩) =
          ({ after with buffer := none }, [.message after.id (.patch waiting) ⟨after.outputGroup⟩]) := by
  let m := fresh typeName comm defaults throttle
  -- The two invariants of the run, and that its throttle is the one it started with.
  have hb : (m.run ops).1.Bounded := (fresh_bounded typeName comm defaults throttle).run ops
  have ht : (m.run ops).1.throttle = throttle := m.run_throttle ops
  have hle : (m.run ops).1.pending ≤ throttle := ht ▸ hb.pending_le
  have hsat (waiting : Attributes) (hw : (m.run ops).1.buffer = some waiting)
      (hne : waiting.isEmpty = false) : (m.run ops).1.pending = (m.run ops).1.throttle :=
    hb.saturated (isWaiting_iff.mpr ⟨waiting, hw, hne⟩)
  refine ⟨(m.run ops).1, (m.run ops).2, rfl, hle, fun w hw hne => ht ▸ hsat w hw hne, ?_, ?_, ?_⟩
  · have hs := m.run_syncs ops
    omega
  · rw [Model.step, handleStatus_idle]
    rcases (m.run ops).1.onIdle_cases with ⟨_, h⟩ | ⟨_, frames, hl, h⟩ <;> rw [h]
    · exact Nat.zero_le 1
    · exact Nat.le_trans List.countP_le_length hl
  · intro waiting hw hne hd
    exact onIdle_of_flush (hsat waiting hw hne) hw hne hd

end Model

end WidgetSync
