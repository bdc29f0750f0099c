import WidgetSync.Proofs.Model.Request

/-! How current the patches are that a model sends. What waits is kept as the views made it, and updates of the
backend pass it by. So a flush may carry a value that the model itself no longer has, but only of attributes that
the backend updated after the views did. -/
namespace WidgetSync

/-- Whether the backend has updated an attribute since a view changed it last. -/
def isOverwritten (key : String) (requests : List Request) : Bool :=
  requests.foldl (fun overwritten r =>
    match r with
    | .change _ changes => overwritten && !changes.contains key
    | .remote state => overwritten || (state.erase cssKey).contains key
    | .custom _ _ => overwritten
    | .status _ => overwritten) false

theorem isOverwritten_concat (key : String) (requests : List Request) (r : Request) :
    isOverwritten key (requests ++ [r]) =
      match r with
      | .change _ changes => isOverwritten key requests && !changes.contains key
      | .remote state => isOverwritten key requests || (state.erase cssKey).contains key
      | .custom _ _ => isOverwritten key requests
      | .status _ => isOverwritten key requests := by
  rw [isOverwritten, List.foldl_append]
  cases r <;> rfl

namespace Model

/-- After some requests, what waits is current but for attributes that the backend has overwritten. -/
structure Fresh (m : Model) (requests : List Request) : Prop where
  bounded : m.Bounded
  not_updating : m.updating = false
  current : ∀ waiting key value, m.buffer = some waiting → waiting.get? key = some value →
    isOverwritten key requests = false → m.attributes.get? key = some value

/-- Where nothing waits there is nothing to be current. -/
theorem Fresh.of_not_waiting {m : Model} {requests : List Request} (hb : m.Bounded)
    (hu : m.updating = false) (hw : m.isWaiting = false) : m.Fresh requests where
  bounded := hb
  not_updating := hu
  current := by
    intro waiting key value hbuffer hkey _
    have hempty : waiting.isEmpty = true := by
      by_contra hne
      rw [Bool.not_eq_true] at hne
      have hwaiting := isWaiting_iff.mpr ⟨waiting, hbuffer, hne⟩
      exact absurd (hw.symm.trans hwaiting) Bool.false_ne_true
    rw [OrdMap.eq_empty_of_isEmpty hempty, OrdMap.get?_emptyCollection] at hkey
    contradiction

theorem Fresh.of_content {m m' : Model} {requests : List Request} (h : m.Fresh requests)
    (hs : m'.content = m.content) : m'.Fresh requests := by
  simp only [content, Prod.mk.injEq] at hs
  obtain ⟨_, _, hattributes, _, hpending, hthrottle, hbuffer, hupdating⟩ := hs
  refine ⟨h.bounded.of_same hpending hthrottle hbuffer, hupdating.trans h.not_updating, ?_⟩
  rw [hbuffer, hattributes]
  exact h.current

theorem fresh_fresh (typeName : String) (comm : Comm) (defaults : Attributes) (throttle : Nat)
    (requests : List Request) : (fresh typeName comm defaults throttle).Fresh requests :=
  .of_not_waiting (fresh_bounded typeName comm defaults throttle) rfl rfl

/-! ### What a request keeps -/

theorem applyRemote_attributes (m : Model) (state : Attributes) :
    (m.applyRemote state).1.attributes = m.attributes.merge (state.erase cssKey) := by
  simp only [applyRemote, mergeRemote]
  split <;> rfl

theorem requestSync_attributes (m : Model) (changed : Attributes) (patch : Bool) :
    (m.requestSync changed patch).1.attributes = m.attributes := by
  rcases m.requestSync_cases changed patch with h | ⟨_, h⟩ | ⟨_, h⟩ <;> rw [h]

theorem onIdle_attributes (m : Model) : m.onIdle.1.attributes = m.attributes := by
  rcases m.onIdle_cases with ⟨_, h⟩ | ⟨_, _, _, h⟩ <;> rw [h]

theorem ask_bounded {m : Model} (h : m.Bounded) (r : Request) : (m.ask r).1.Bounded :=
  h.run r.operations

theorem ask_updating {m : Model} (h : m.updating = false) (r : Request) :
    (m.ask r).1.updating = false := by
  rw [ask]
  generalize r.operations = ops
  induction ops generalizing m with
  | nil => exact h
  | cons op rest ih => exact ih (step_updating h op)

/-- A change reaches the attributes at once. -/
theorem ask_change_attributes (m : Model) (view : ViewId) (changes : Attributes) :
    (m.ask (.change view changes)).1.attributes = m.attributes.merge changes := by
  rw [ask_change, requestSync_attributes]
  rfl

/-- At the throttle a change joins those that wait, and else nothing waits. -/
theorem ask_change_buffer {m : Model} (hb : m.Bounded) (hu : m.updating = false) (view : ViewId)
    (changes : Attributes) :
    (m.ask (.change view changes)).1.buffer = some ((m.buffer.getD ∅).merge changes) ∨
      (m.ask (.change view changes)).1.isWaiting = false := by
  rw [ask_change]
  let asked := (m.setLastModified view).set changes
  have hbuffer : asked.buffer = m.buffer := rfl
  rcases Nat.lt_or_ge m.pending m.throttle with ht | ht
  · have hnone : asked.isWaiting = false := by
      rw [isWaiting, hbuffer]
      exact hb.not_waiting ht
    right
    rcases asked.requestSync_cases changes true with he | ⟨hfull, _⟩ | ⟨_, he⟩
    · rw [he]
      exact hnone
    · exact absurd hfull (Nat.not_le.mpr ht)
    · rw [he]
      exact hnone
  · left
    rw [requestSync_of_throttled (m := asked) hu ht]
    rfl

theorem Fresh.change {m : Model} {requests : List Request} (h : m.Fresh requests) (view : ViewId)
    (changes : Attributes) :
    (m.ask (.change view changes)).1.Fresh (requests ++ [.change view changes]) := by
  have hb := ask_bounded h.bounded (.change view changes)
  have hu := ask_updating h.not_updating (.change view changes)
  rcases ask_change_buffer h.bounded h.not_updating view changes with hbuffer | hnone
  · refine ⟨hb, hu, fun waiting key value hw hkey hover => ?_⟩
    obtain rfl := Option.some.inj (hbuffer.symm.trans hw)
    rw [ask_change_attributes, OrdMap.get?_merge]
    rw [OrdMap.get?_merge] at hkey
    cases hc : changes.get? key with
    | some changed =>
      -- What was changed now is in both.
      rw [hc] at hkey
      exact hkey
    | none =>
      -- What was not changed waited before, and is as current as it was.
      rw [hc] at hkey
      have hlacks : changes.contains key = false := OrdMap.contains_eq_false_iff.mpr hc
      rw [isOverwritten_concat] at hover
      simp only [hlacks, Bool.not_false, Bool.and_true] at hover
      cases hwaited : m.buffer with
      | none =>
        rw [hwaited] at hkey
        contradiction
      | some waited =>
        rw [hwaited] at hkey
        exact h.current waited key value hwaited hkey hover
  · exact .of_not_waiting hb hu hnone

theorem Fresh.remote {m : Model} {requests : List Request} (h : m.Fresh requests)
    (state : Attributes) :
    (m.ask (.remote state)).1.Fresh (requests ++ [.remote state]) := by
  refine ⟨ask_bounded h.bounded _, ask_updating h.not_updating _, fun waiting key value hw hkey hover => ?_⟩
  rw [ask_remote] at hw ⊢
  -- The backend's update leaves what waits alone.
  have hquiet : (ModelOperation.applyRemote state).isQuiet = true := rfl
  have hbuffer : (m.applyRemote state).1.buffer = m.buffer := (m.step_of_quiet hquiet).2.2.1
  rw [isOverwritten_concat] at hover
  obtain ⟨hbefore, hlacks⟩ := Bool.or_eq_false_iff.mp hover
  rw [applyRemote_attributes, OrdMap.get?_merge, OrdMap.contains_eq_false_iff.mp hlacks]
  exact h.current waiting key value (hbuffer.symm.trans hw) hkey hbefore

theorem Fresh.status {m : Model} {requests : List Request} (h : m.Fresh requests)
    (report : StatusMessage) :
    (m.ask (.status report)).1.Fresh (requests ++ [.status report]) := by
  refine ⟨ask_bounded h.bounded _, ask_updating h.not_updating _, fun waiting key value hw hkey hover => ?_⟩
  rw [isOverwritten_concat] at hover
  rw [ask_status] at hw ⊢
  by_cases hi : report.state = .idle
  · have he : m.handleStatus report = m.onIdle := by rw [handleStatus, hi]
    rw [he] at hw ⊢
    rw [onIdle_attributes]
    rcases m.onIdle_cases with ⟨_, hrelease⟩ | ⟨_, _, _, hflush⟩
    · rw [hrelease] at hw
      exact h.current waiting key value hw hkey hover
    · rw [hflush] at hw
      contradiction
  · rw [handleStatus_of_ne_idle hi] at hw ⊢
    exact h.current waiting key value hw hkey hover

theorem Fresh.custom {m : Model} {requests : List Request} (h : m.Fresh requests) (view : ViewId)
    (content : Value) :
    (m.ask (.custom view content)).1.Fresh (requests ++ [.custom view content]) := by
  refine ⟨ask_bounded h.bounded _, ask_updating h.not_updating _, fun waiting key value hw hkey hover => ?_⟩
  rw [isOverwritten_concat] at hover
  rw [ask_custom] at hw ⊢
  exact h.current waiting key value hw hkey hover

theorem Fresh.ask {m : Model} {requests : List Request} (h : m.Fresh requests) (r : Request) :
    (m.ask r).1.Fresh (requests ++ [r]) := by
  cases r with
  | change view changes => exact h.change view changes
  | custom view content => exact h.custom view content
  | remote state => exact h.remote state
  | status report => exact h.status report

/-- A patch that a change sends is current. One that a report sends is current but for what the backend has
overwritten. -/
theorem Fresh.patch_current {m : Model} {requests : List Request} (h : m.Fresh requests) {r : Request}
    {comm : CommId} {data : Attributes} {callbacks : Callbacks}
    (hf : .message comm (.patch data) callbacks ∈ (m.ask r).2) {key : String} {value : Value}
    (hkey : data.get? key = some value) :
    (m.ask r).1.attributes.get? key = some value ∨
      (∃ report, r = .status report) ∧ isOverwritten key requests = true := by
  cases r with
  | change view changes =>
    left
    rw [ask_change_attributes, OrdMap.get?_merge]
    rw [ask_change] at hf
    rcases ((m.setLastModified view).set changes).requestSync_cases changes true with
      he | ⟨_, he⟩ | ⟨_, he⟩ <;> rw [he] at hf
    · exact absurd hf List.not_mem_nil
    · exact absurd hf List.not_mem_nil
    · have hdata : SyncMessage.patch data = .patch changes :=
        (Frame.message.inj (List.mem_singleton.mp hf)).2.1
      rw [SyncMessage.patch.inj hdata] at hkey
      rw [hkey]
      rfl
  | custom view content =>
    rw [ask_custom] at hf
    by_cases hd : (m.setLastModified view).comm.delivers = true
    · rw [sendCustom_of_delivers hd] at hf
      have hdata := (Frame.message.inj (List.mem_singleton.mp hf)).2.1
      contradiction
    · rw [Bool.not_eq_true] at hd
      rw [sendCustom_of_not_delivers hd] at hf
      exact absurd hf List.not_mem_nil
  | remote state =>
    rw [ask_remote] at hf
    exact absurd hf List.not_mem_nil
  | status report =>
    by_cases hover : isOverwritten key requests = true
    · exact .inr ⟨⟨report, rfl⟩, hover⟩
    · left
      rw [Bool.not_eq_true] at hover
      rw [ask_status] at hf ⊢
      by_cases hi : report.state = .idle
      · have he : m.handleStatus report = m.onIdle := by rw [handleStatus, hi]
        rw [he] at hf ⊢
        rw [onIdle_attributes]
        rcases m.onIdle_frames with hnone | ⟨waiting, hwaiting, hone⟩
        · rw [hnone] at hf
          exact absurd hf List.not_mem_nil
        · rw [hone] at hf
          have hdata := (Frame.message.inj (List.mem_singleton.mp hf)).2.1
          rw [SyncMessage.patch.inj hdata] at hkey
          exact h.current waiting key value hwaiting hkey hover
      · rw [handleStatus_of_ne_idle hi] at hf
        exact absurd hf List.not_mem_nil

end Model

end WidgetSync
