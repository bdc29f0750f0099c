import WidgetSync.Proofs.Model.Delivery

/-! What the backend knows of one model. It starts from the initial attributes, merges the patches that
reach it and replaces all it knows by an update. What it knows and the waiting changes are together the
attributes of the model, however local changes, requests for a full sync and reports of the backend follow
on each other. -/
namespace WidgetSync

/-- What the backend knows after one more frame. -/
def Attributes.receive (known : Attributes) : Frame → Attributes
  | .message _ (.patch data) _ => known.merge data
  | .message _ (.update data) _ => data
  | .message _ (.custom _) _ => known
  | .close _ => known

/-- What one side of an open comm does while the backend sends no state. -/
inductive LocalStep where
  /-- A change, which the backend is told. -/
  | change (changes : Attributes)
  /-- The backend is told the whole state. -/
  | resync (changed : Attributes)
  | status (report : StatusMessage)
  deriving DecidableEq

def LocalStep.operations : LocalStep → List ModelOperation
  | .change changes => [.set changes, .requestSync changes true]
  | .resync changed => [.requestSync changed false]
  | .status report => [.status report]

namespace Model

/-- The changes that wait; none, where there is no buffer. -/
def waiting (m : Model) : Attributes := m.buffer.getD ∅

theorem waiting_of_not_waiting {m : Model} (h : m.isWaiting = false) : m.waiting = ∅ := by
  have hm := mergeAll_buffer_of_not_waiting h
  cases hb : m.buffer with
  | none => simp [waiting, hb]
  | some changes =>
    rw [hb, Option.toList_some, Attributes.mergeAll_singleton] at hm
    simp [waiting, hb, hm]

/-- The backend knows all of the model but the waiting changes. -/
structure Mirrored (m : Model) (known : Attributes) : Prop where
  bounded : m.Bounded
  delivers : m.comm.delivers = true
  not_updating : m.updating = false
  exact_but_waiting : known.merge m.waiting = m.attributes

namespace Mirrored

variable {m : Model} {known : Attributes}

/-- With a free slot nothing waits, and the backend knows the whole model. -/
theorem known_eq (h : m.Mirrored known) (ht : m.pending < m.throttle) : known = m.attributes := by
  have he := h.exact_but_waiting
  rw [waiting_of_not_waiting (h.bounded.not_waiting ht), OrdMap.merge_empty] at he
  exact he

theorem change (h : m.Mirrored known) (changes : Attributes) :
    ((m.set changes).requestSync changes true).1.Mirrored
      (((m.set changes).requestSync changes true).2.foldl Attributes.receive known) := by
  have hbounded : (m.set changes).Bounded := h.bounded.step (.set changes)
  have hnext := hbounded.requestSync changes true
  have hu : (m.set changes).updating = false := h.not_updating
  rcases Nat.lt_or_ge m.pending m.throttle with ht | ht
  · -- The patch carries just what the model has gained since the backend knew it all.
    rw [requestSync_of_free hu ht h.delivers] at hnext ⊢
    refine ⟨hnext, h.delivers, hu, ?_⟩
    have hnone : m.waiting = ∅ := waiting_of_not_waiting (h.bounded.not_waiting ht)
    calc (known.merge changes).merge m.waiting
        = known.merge changes := by rw [hnone, OrdMap.merge_empty]
      _ = m.attributes.merge changes := by rw [h.known_eq ht]
  · -- The change is merged last into what waits, as it is into the attributes.
    rw [requestSync_of_throttled hu ht] at hnext ⊢
    refine ⟨hnext, h.delivers, hu, ?_⟩
    calc known.merge (m.waiting.merge changes)
        = (known.merge m.waiting).merge changes := (OrdMap.merge_assoc ..).symm
      _ = m.attributes.merge changes := by rw [h.exact_but_waiting]

theorem resync (h : m.Mirrored known) (changed : Attributes) :
    (m.requestSync changed false).1.Mirrored
      ((m.requestSync changed false).2.foldl Attributes.receive known) := by
  have hnext := h.bounded.requestSync changed false
  rcases Nat.lt_or_ge m.pending m.throttle with ht | ht
  · rw [requestSync_of_free h.not_updating ht h.delivers] at hnext ⊢
    refine ⟨hnext, h.delivers, h.not_updating, ?_⟩
    have hnone : m.waiting = ∅ := waiting_of_not_waiting (h.bounded.not_waiting ht)
    show m.attributes.merge m.waiting = m.attributes
    rw [hnone, OrdMap.merge_empty]
  · -- The snapshot will go out as a patch. It loses nothing by that, since the attributes contain all
    -- that the backend knows.
    rw [requestSync_of_throttled h.not_updating ht] at hnext ⊢
    refine ⟨hnext, h.delivers, h.not_updating, ?_⟩
    show known.merge m.attributes = m.attributes
    rw [← h.exact_but_waiting, OrdMap.merge_merge_self]

theorem onIdle (h : m.Mirrored known) :
    m.onIdle.1.Mirrored (m.onIdle.2.foldl Attributes.receive known) := by
  have hnext := h.bounded.onIdle
  have hexact := h.exact_but_waiting
  by_cases hc : m.pending = m.throttle ∧ m.isWaiting = true
  · obtain ⟨changes, hb, hw⟩ := isWaiting_iff.mp hc.2
    rw [onIdle_of_flush hc.1 hb hw h.delivers] at hnext ⊢
    refine ⟨hnext, h.delivers, h.not_updating, ?_⟩
    rw [waiting, hb, Option.getD_some] at hexact
    exact hexact
  · rw [onIdle_of_release hc] at hnext ⊢
    exact ⟨hnext, h.delivers, h.not_updating, hexact⟩

theorem step (h : m.Mirrored known) (s : LocalStep) :
    (m.run s.operations).1.Mirrored ((m.run s.operations).2.foldl Attributes.receive known) := by
  cases s with
  | change changes => simpa [LocalStep.operations, Model.run, Model.step] using h.change changes
  | resync changed => simpa [LocalStep.operations, Model.run, Model.step] using h.resync changed
  | status report =>
    by_cases hi : report.state = .idle
    · obtain rfl : report = ⟨.idle⟩ := by rw [← hi]
      simpa [LocalStep.operations, Model.run, Model.step, handleStatus_idle] using h.onIdle
    · simpa [LocalStep.operations, Model.run, Model.step, handleStatus_of_ne_idle hi] using h

theorem run (h : m.Mirrored known) (steps : List LocalStep) :
    (m.run (steps.flatMap LocalStep.operations)).1.Mirrored
      ((m.run (steps.flatMap LocalStep.operations)).2.foldl Attributes.receive known) := by
  induction steps generalizing m known with
  | nil => exact h
  | cons s rest ih =>
    -- The backend reads the frames of the first step before those of the rest.
    rw [List.flatMap_cons, run_append, List.foldl_append]
    exact ih (h.step s)

end Mirrored

theorem fresh_mirrored (typeName : String) (id : CommId) (defaults : Attributes) (throttle : Nat) :
    (fresh typeName (.opened id) defaults throttle).Mirrored defaults where
  bounded := fresh_bounded typeName (.opened id) defaults throttle
  delivers := rfl
  not_updating := rfl
  exact_but_waiting := (OrdMap.empty_merge defaults).symm

/-- After any local steps of a new model with an open comm, whatever its throttle, the frames sent and then
the waiting changes turn the initial attributes into those of the model. A full sync that had to wait goes
out as a patch and is no exception. -/
theorem mirror_and_buffer_exact (typeName : String) (id : CommId) (initial : Attributes)
    (throttle : Nat) (steps : List LocalStep) :
    let m := fresh typeName (.opened id) initial throttle
    let (after, frames) := m.run (steps.flatMap LocalStep.operations)
    (frames.foldl Attributes.receive initial).merge (after.buffer.getD ∅) = after.attributes :=
  ((fresh_mirrored typeName id initial throttle).run steps).exact_but_waiting

/-- A change waits, a full sync replaces it, a further change joins that, and the flush tells it all. -/
example :
    let m := fresh "BoolWidgetModel" (.opened ⟨"c"⟩) ∅ 1
    let value (b : Bool) : Attributes := .ofList [("value", .ofBool b)]
    let steps : List LocalStep := [.change (value true), .change (value false), .resync ∅,
      .change (value true), .status ⟨.idle⟩]
    ((m.run (steps.flatMap LocalStep.operations)).2.foldl Attributes.receive ∅) = value true := by
  decide +kernel

end Model

end WidgetSync
