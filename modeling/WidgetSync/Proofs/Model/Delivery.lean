import WidgetSync.Proofs.Model.Throttle

/-! What reaches the backend of the local changes of one model. While its comm is open, the patches sent
so far and then the waiting changes amount to all changes asked for, and as many idle reports as the
throttle counts, and one more, send what waits. -/
namespace WidgetSync

/-- Later changes overwrite earlier ones. -/
def Attributes.mergeAll (changes : List Attributes) : Attributes := changes.foldl OrdMap.merge ∅

namespace Attributes

theorem foldl_merge (a : Attributes) (changes : List Attributes) :
    changes.foldl OrdMap.merge a = a.merge (mergeAll changes) := by
  -- Merging is associative, so that what stands in front may be merged last.
  induction changes generalizing a with
  | nil => exact (OrdMap.merge_empty a).symm
  | cons c rest ih =>
    simp only [mergeAll, List.foldl_cons]
    rw [ih, ih, OrdMap.empty_merge, OrdMap.merge_assoc]

theorem mergeAll_append (xs ys : List Attributes) :
    mergeAll (xs ++ ys) = (mergeAll xs).merge (mergeAll ys) := by
  rw [mergeAll, List.foldl_append, foldl_merge]
  rfl

@[simp] theorem mergeAll_singleton (a : Attributes) : mergeAll [a] = a := OrdMap.empty_merge a

end Attributes

/-- The data of a patch. -/
def Frame.patch? : Frame → Option Attributes
  | .message _ (.patch data) _ => some data
  | .message _ (.update _) _ => none
  | .message _ (.custom _) _ => none
  | .close _ => none

/-- The data of the patches among the frames, in their order. -/
def patches (frames : List Frame) : List Attributes := frames.filterMap Frame.patch?

theorem patches_append (xs ys : List Frame) : patches (xs ++ ys) = patches xs ++ patches ys :=
  List.filterMap_append

/-- Frames without state hold no patch. -/
theorem patches_eq_nil {frames : List Frame} (h : frames.countP Frame.isSync = 0) :
    patches frames = [] := by
  refine List.filterMap_eq_nil_iff.mpr fun f hf => ?_
  have hs : f.isSync ≠ true := List.countP_eq_zero.mp h f hf
  cases f with
  | close comm => rfl
  | message comm data callbacks =>
    cases data with
    | update data => exact absurd rfl hs
    | patch data => exact absurd rfl hs
    | custom content => rfl

namespace ModelOperation

/-- The local change that an operation tells the backend as a patch. -/
def change? : ModelOperation → Option Attributes
  | .requestSync changed true => some changed
  | _ => none

/-- An operation that leaves the comm open and tells the backend changes only, never the whole state. -/
def isOngoing : ModelOperation → Bool
  | .requestSync _ patch => patch
  | .closeComm => false
  | .disconnect => false
  | _ => true

end ModelOperation

namespace Model

/-- Everything asked for is in the patches sent or waits behind them. -/
structure Faithful (m : Model) (sent made : List Attributes) : Prop where
  bounded : m.Bounded
  delivers : m.comm.delivers = true
  not_updating : m.updating = false
  merged : Attributes.mergeAll (sent ++ m.buffer.toList) = Attributes.mergeAll made

/-- An ongoing operation keeps the comm as it is. -/
theorem step_comm (m : Model) {op : ModelOperation} (h : op.isOngoing = true) :
    (m.step op).1.comm = m.comm := by
  cases op with
  | requestSync changed patch =>
    rw [step]
    rcases m.requestSync_cases changed patch with he | ⟨_, he⟩ | ⟨_, he⟩ <;> rw [he]
  | status report =>
    simp only [step, handleStatus]
    split
    · rcases m.onIdle_cases with ⟨_, he⟩ | ⟨_, _, _, he⟩ <;> rw [he]
    · rfl
    · rfl
  | applyRemote state => simp only [step, applyRemote, mergeRemote]; split <;> rfl
  | subscribe view => simp only [step, subscribe]; split <;> rfl
  | removeView view => simp only [step, removeView]; split <;> rfl
  | closeComm => exact absurd h Bool.false_ne_true
  | disconnect => exact absurd h Bool.false_ne_true
  | set changes => rfl
  | sendCustom content => rfl
  | unsubscribe view => rfl
  | addView group view => rfl
  | setLastModified view => rfl

/-- A flush goes to the model's own comm. -/
theorem onIdle_frames_comm (m : Model) {f : Frame} (hf : f ∈ m.onIdle.2) : f.comm = m.id := by
  by_cases hc : m.pending = m.throttle ∧ m.isWaiting = true
  · by_cases hd : m.comm.delivers = true
    · obtain ⟨waiting, hb, hw⟩ := isWaiting_iff.mp hc.2
      rw [onIdle_of_flush hc.1 hb hw hd] at hf
      rw [List.mem_singleton.mp hf]
      rfl
    · rw [Bool.not_eq_true] at hd
      rw [onIdle_of_lost hc.1 hc.2 hd] at hf
      exact absurd hf List.not_mem_nil
  · rw [onIdle_of_release hc] at hf
    exact absurd hf List.not_mem_nil

/-- What an ongoing operation sends, it sends on the model's own comm. -/
theorem step_frames_comm (m : Model) {op : ModelOperation} (h : op.isOngoing = true) {f : Frame}
    (hf : f ∈ (m.step op).2) : f.comm = m.id := by
  cases op with
  | requestSync changed patch =>
    rw [step] at hf
    rcases m.requestSync_cases changed patch with he | ⟨_, he⟩ | ⟨_, he⟩ <;> rw [he] at hf
    · exact absurd hf List.not_mem_nil
    · exact absurd hf List.not_mem_nil
    · rw [List.mem_singleton.mp hf]
      rfl
  | sendCustom content =>
    rw [step] at hf
    by_cases hd : m.comm.delivers = true
    · rw [sendCustom_of_delivers hd] at hf
      rw [List.mem_singleton.mp hf]
      rfl
    · rw [Bool.not_eq_true] at hd
      rw [sendCustom_of_not_delivers hd] at hf
      exact absurd hf List.not_mem_nil
  | status report =>
    simp only [step, handleStatus] at hf
    split at hf
    · exact m.onIdle_frames_comm hf
    · exact absurd hf List.not_mem_nil
    · exact absurd hf List.not_mem_nil
  | closeComm => exact absurd h Bool.false_ne_true
  | disconnect => exact absurd h Bool.false_ne_true
  | set changes => exact absurd hf List.not_mem_nil
  | applyRemote state => exact absurd hf List.not_mem_nil
  | subscribe view => exact absurd hf List.not_mem_nil
  | unsubscribe view => exact absurd hf List.not_mem_nil
  | addView group view => exact absurd hf List.not_mem_nil
  | removeView view => exact absurd hf List.not_mem_nil
  | setLastModified view => exact absurd hf List.not_mem_nil

theorem run_frames_comm (m : Model) {ops : List ModelOperation}
    (ho : ∀ op ∈ ops, op.isOngoing = true) {f : Frame} (hf : f ∈ (m.run ops).2) : f.comm = m.id := by
  induction ops generalizing m with
  | nil => exact absurd hf List.not_mem_nil
  | cons op rest ih =>
    have hop := ho op List.mem_cons_self
    rw [run_cons] at hf
    rcases List.mem_append.mp hf with hf | hf
    · exact m.step_frames_comm hop hf
    · have hid : (m.step op).1.id = m.id := by rw [id, id, m.step_comm hop]
      exact (ih (m.step op).1 (fun o hm => ho o (List.mem_cons_of_mem _ hm)) hf).trans hid

/-- Between operations no update is being applied. -/
theorem step_updating {m : Model} (h : m.updating = false) (op : ModelOperation) :
    (m.step op).1.updating = false := by
  cases op with
  | requestSync changed patch =>
    rw [step]
    rcases m.requestSync_cases changed patch with he | ⟨_, he⟩ | ⟨_, he⟩ <;> rw [he] <;> exact h
  | status report =>
    simp only [step, handleStatus]
    split
    · rcases m.onIdle_cases with ⟨_, he⟩ | ⟨_, _, _, he⟩ <;> rw [he] <;> exact h
    · exact h
    · exact h
  | applyRemote state => rfl
  | subscribe view => simp only [step, subscribe]; split <;> exact h
  | removeView view => simp only [step, removeView]; split <;> exact h
  | set changes => exact h
  | sendCustom content => exact h
  | unsubscribe view => exact h
  | addView group view => exact h
  | setLastModified view => exact h
  | closeComm => exact h
  | disconnect => exact h

/-- What does not wait holds no change, though a buffer may be there. -/
theorem mergeAll_buffer_of_not_waiting {m : Model} (hw : m.isWaiting = false) :
    Attributes.mergeAll m.buffer.toList = ∅ := by
  cases hb : m.buffer with
  | none => rfl
  | some waiting =>
    have he : waiting.isEmpty = true := by simpa [isWaiting, hb] using hw
    rw [OrdMap.eq_empty_of_isEmpty he, Option.toList_some, Attributes.mergeAll_singleton]

namespace Faithful

variable {m : Model} {sent made : List Attributes}

/-- Unless something waits, the patches sent amount to all changes. -/
theorem merged_of_not_waiting (h : m.Faithful sent made) (hw : m.isWaiting = false) :
    Attributes.mergeAll sent = Attributes.mergeAll made := by
  have hm := h.merged
  rw [Attributes.mergeAll_append, mergeAll_buffer_of_not_waiting hw, OrdMap.merge_empty] at hm
  exact hm

theorem requestSync (h : m.Faithful sent made) (changed : Attributes) :
    (m.requestSync changed true).1.Faithful (sent ++ patches (m.requestSync changed true).2)
      (made ++ [changed]) := by
  have hmade : Attributes.mergeAll (made ++ [changed]) =
      (Attributes.mergeAll made).merge changed := by
    rw [Attributes.mergeAll_append, Attributes.mergeAll_singleton]
  rcases Nat.lt_or_ge m.pending m.throttle with ht | ht
  · -- A free slot: nothing waits that the change could overtake.
    have hnext := h.bounded.requestSync changed true
    rw [requestSync_of_free h.not_updating ht h.delivers] at hnext ⊢
    refine ⟨hnext, h.delivers, h.not_updating, ?_⟩
    have hw := h.bounded.not_waiting ht
    have hsent := h.merged_of_not_waiting hw
    have hpatch : patches [Frame.message m.id
        (if true = true then .patch changed else .update m.attributes) ⟨m.outputGroup⟩] =
        [changed] := rfl
    rw [hpatch]
    calc Attributes.mergeAll (sent ++ [changed] ++ m.buffer.toList)
        = (Attributes.mergeAll (sent ++ [changed])).merge
            (Attributes.mergeAll m.buffer.toList) := Attributes.mergeAll_append ..
      _ = Attributes.mergeAll (sent ++ [changed]) := by
          rw [mergeAll_buffer_of_not_waiting hw, OrdMap.merge_empty]
      _ = (Attributes.mergeAll sent).merge changed := by
          rw [Attributes.mergeAll_append, Attributes.mergeAll_singleton]
      _ = Attributes.mergeAll (made ++ [changed]) := by rw [hsent, hmade]
  · -- No free slot: the change joins those that wait.
    have hnext := h.bounded.requestSync changed true
    rw [requestSync_of_throttled h.not_updating ht] at hnext ⊢
    refine ⟨hnext, h.delivers, h.not_updating, ?_⟩
    rw [hmade, ← h.merged]
    cases hb : m.buffer with
    | none => simp [patches, Throttle.join, Attributes.mergeAll_append]
    | some waiting => simp [patches, Throttle.join, Attributes.mergeAll_append, OrdMap.merge_assoc]

theorem onIdle (h : m.Faithful sent made) :
    m.onIdle.1.Faithful (sent ++ patches m.onIdle.2) made := by
  have hnext := h.bounded.onIdle
  by_cases hc : m.pending = m.throttle ∧ m.isWaiting = true
  · -- What waits becomes the last patch sent.
    obtain ⟨waiting, hb, hw⟩ := isWaiting_iff.mp hc.2
    rw [onIdle_of_flush hc.1 hb hw h.delivers] at hnext ⊢
    refine ⟨hnext, h.delivers, h.not_updating, ?_⟩
    rw [← h.merged, hb]
    simp [patches, Frame.patch?]
  · rw [onIdle_of_release hc] at hnext ⊢
    refine ⟨hnext, h.delivers, h.not_updating, ?_⟩
    rw [← h.merged]
    simp [patches]

theorem step (h : m.Faithful sent made) {op : ModelOperation} (ho : op.isOngoing = true) :
    (m.step op).1.Faithful (sent ++ patches (m.step op).2) (made ++ op.change?.toList) := by
  rcases op.kinds with ⟨changed, patch, rfl⟩ | rfl | hq
  · obtain rfl : patch = true := ho
    exact h.requestSync changed
  · have hnone : (ModelOperation.status ⟨.idle⟩).change?.toList = [] := rfl
    rw [hnone, List.append_nil]
    exact h.onIdle
  · -- A quiet operation sends no patch and is told no change.
    obtain ⟨_, _, hb, hc⟩ := m.step_of_quiet hq
    have hnone : op.change? = none := by
      cases op with
      | requestSync changed patch => exact absurd hq Bool.false_ne_true
      | _ => rfl
    rw [patches_eq_nil hc, hnone, Option.toList_none, List.append_nil, List.append_nil]
    refine ⟨h.bounded.step op, ?_, step_updating h.not_updating op, ?_⟩
    · rw [m.step_comm ho]
      exact h.delivers
    · rw [hb]
      exact h.merged

theorem run (h : m.Faithful sent made) {ops : List ModelOperation}
    (ho : ∀ op ∈ ops, op.isOngoing = true) :
    (m.run ops).1.Faithful (sent ++ patches (m.run ops).2)
      (made ++ ops.filterMap ModelOperation.change?) := by
  induction ops generalizing m sent made with
  | nil => simpa [Model.run, patches] using h
  | cons op rest ih =>
    -- What the first operation sends and is told comes before what the rest sends and is told.
    have hfirst := h.step (ho op List.mem_cons_self)
    have hrest := ih hfirst fun o hmem => ho o (List.mem_cons_of_mem _ hmem)
    have hmade : (op :: rest).filterMap ModelOperation.change? =
        op.change?.toList ++ rest.filterMap ModelOperation.change? := by
      cases hc : op.change? <;> simp [hc]
    rw [hmade]
    simpa only [run_cons, patches_append, List.append_assoc] using hrest

end Faithful

theorem fresh_faithful (typeName : String) {comm : Comm} (hc : comm.delivers = true)
    (defaults : Attributes) (throttle : Nat) :
    (fresh typeName comm defaults throttle).Faithful [] [] where
  bounded := fresh_bounded typeName comm defaults throttle
  delivers := hc
  not_updating := rfl
  merged := rfl

/-! ### Settling down -/

/-- Idle reports while nothing waits free one slot each. -/
theorem run_idles_of_not_waiting {m : Model} (hw : m.isWaiting = false) (k : Nat) :
    m.run (List.replicate k (.status ⟨.idle⟩)) = ({ m with pending := m.pending - k }, []) := by
  induction k generalizing m with
  | zero => rfl
  | succ k ih =>
    have hfree : m.onIdle = ({ m with pending := m.pending - 1 }, []) := by
      refine onIdle_of_release fun hc => ?_
      exact absurd (hw.symm.trans hc.2) Bool.false_ne_true
    have hrest : ({ m with pending := m.pending - 1 } : Model).isWaiting = false := hw
    rw [List.replicate_succ, run_cons, Model.step, handleStatus_idle, hfree]
    simp only [ih hrest, List.append_nil, Nat.sub_sub, Nat.add_comm 1 k]

theorem isOngoing_of_mem_idles {k : Nat} {op : ModelOperation}
    (h : op ∈ List.replicate k (.status ⟨.idle⟩)) : op.isOngoing = true := by
  rw [List.eq_of_mem_replicate h]
  rfl

/-- One idle report more than the throttle leaves nothing in flight and nothing that waits. -/
theorem Bounded.settle {m : Model} (h : m.Bounded) (hd : m.comm.delivers = true) :
    let settled := (m.run (List.replicate (m.throttle + 1) (.status ⟨.idle⟩))).1
    settled.pending = 0 ∧ settled.isWaiting = false := by
  intro settled
  have hle := h.pending_le
  by_cases hw : m.isWaiting = true
  · -- The first report flushes, the others empty the slots.
    obtain ⟨waiting, hb, hne⟩ := isWaiting_iff.mp hw
    have hflush := onIdle_of_flush (h.saturated hw) hb hne hd
    have he : settled = { m with buffer := none, pending := m.pending - m.throttle } := by
      have hrun : ({ m with buffer := none } : Model).isWaiting = false := rfl
      simp only [settled]
      rw [List.replicate_succ, run_cons, Model.step, handleStatus_idle, hflush]
      simp only
      rw [run_idles_of_not_waiting hrun]
    rw [he]
    exact ⟨by simp only; omega, rfl⟩
  · rw [Bool.not_eq_true] at hw
    have he : settled = { m with pending := m.pending - (m.throttle + 1) } := by
      simp only [settled]
      rw [run_idles_of_not_waiting hw]
    rw [he]
    exact ⟨by simp only; omega, hw⟩

/-- Then the patches sent amount to all changes. -/
theorem Faithful.settle {m : Model} {sent made : List Attributes} (h : m.Faithful sent made) :
    let idles : List ModelOperation := List.replicate (m.throttle + 1) (.status ⟨.idle⟩)
    (m.run idles).1.pending = 0 ∧ (m.run idles).1.isWaiting = false ∧
      Attributes.mergeAll (sent ++ patches (m.run idles).2) = Attributes.mergeAll made := by
  intro idles
  obtain ⟨hpending, hwaiting⟩ := h.bounded.settle h.delivers
  have hongoing : ∀ op ∈ idles, op.isOngoing = true := fun op hop => isOngoing_of_mem_idles hop
  have hrun := h.run hongoing
  -- Idle reports make no changes of their own.
  have hnone : idles.filterMap ModelOperation.change? = [] := by
    simp [idles, List.filterMap_replicate, ModelOperation.change?]
  rw [hnone, List.append_nil] at hrun
  exact ⟨hpending, hwaiting, hrun.merged_of_not_waiting hwaiting⟩

end Model

end WidgetSync
