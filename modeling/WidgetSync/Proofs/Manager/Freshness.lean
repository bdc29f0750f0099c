import WidgetSync.Proofs.Manager.Fate
import WidgetSync.Proofs.Model.Freshness

/-! How current the patches are that leave the page. -/
namespace WidgetSync.Manager

/-- What the operations ask of the model of one comm. -/
def requestsOn (m : Manager) (comm : CommId) : List Operation → List Request
  | [] => []
  | op :: rest => (m.requestOn comm op).toList ++ (m.step op).manager.requestsOn comm rest

variable {m : Manager} {op : Operation} {comm : CommId}

/-- A model of the comm, if there is one, is fresh after the requests. -/
def FreshOn (m : Manager) (comm : CommId) (requests : List Request) : Prop :=
  ∀ model, m.models.get? comm = some model → model.Fresh requests

theorem Consistent.freshOn_step (h : m.Consistent) {requests : List Request}
    (hf : m.FreshOn comm requests) (op : Operation) :
    (m.step op).manager.FreshOn comm (requests ++ (m.requestOn comm op).toList) := by
  intro model' hm'
  have hfate := h.fate op comm
  rw [hm'] at hfate
  rw [FreshOn] at hf
  generalize m.models.get? comm = before, framesOn comm (m.step op).frames = frames at hfate hf
  cases hfate with
  | @opened request opened first hop hc ho hfirst =>
    -- A new model has nothing that waits, whatever was asked of the comm before.
    obtain ⟨_, kind, he⟩ := openComm_ok ho
    rw [he, hc, setModel, OrdMap.get?_insert_eq, if_pos rfl] at hfirst
    obtain rfl := Option.some.inj hfirst
    exact Model.fresh_fresh kind.name (m.hub.comm comm) kind.defaults m.throttle _
  | @asked model r hr =>
    rw [hr]
    exact (hf model rfl).ask r
  | @kept model _ hr hs hv hd =>
    rw [hr, Option.toList_none, List.append_nil]
    exact (hf model rfl).of_content hs

theorem Consistent.freshOn_run (h : m.Consistent) {requests : List Request}
    (hf : m.FreshOn comm requests) (ops : List Operation) :
    (m.run ops).1.FreshOn comm (requests ++ m.requestsOn comm ops) := by
  induction ops generalizing m requests with
  | nil =>
    rw [requestsOn, List.append_nil]
    exact hf
  | cons op rest ih =>
    rw [requestsOn, ← List.append_assoc]
    exact ih (h.step op) (h.freshOn_step hf op)

/-- In every run from a new manager, with whatever kinds are registered on the way: a patch is sent by a live model,
and each value in it is the one that the model has at that moment, unless the patch is sent in answer to a report and
the backend has updated the attribute since a view changed it last. -/
theorem patches_current (notebook : Notebook) (throttle : Nat) (ops : List Operation) (op : Operation)
    (comm : CommId) (data : Attributes) (callbacks : Callbacks)
    (hsent : .message comm (.patch data) callbacks ∈
      (((new notebook throttle).run ops).1.step op).frames) :
    ∃ model, (((new notebook throttle).run ops).1.step op).manager.models.get? comm = some model ∧
      ∀ key value, data.get? key = some value →
        model.attributes.get? key = some value ∨
          (∃ report, op = .status comm report) ∧
            isOverwritten key ((new notebook throttle).requestsOn comm ops) = true := by
  let start := new notebook throttle
  let m := (start.run ops).1
  have hstart : start.Consistent := new_consistent notebook throttle
  have h : m.Consistent := hstart.run ops
  have hnone : start.FreshOn comm [] := fun _ hm => nomatch hm
  have hfresh : m.FreshOn comm (start.requestsOn comm ops) := hstart.freshOn_run hnone ops
  have hon : .message comm (.patch data) callbacks ∈ framesOn comm (m.step op).frames :=
    List.mem_filter.mpr ⟨hsent, decide_eq_true rfl⟩
  have hfate := h.fate op comm
  show ∃ model, (m.step op).manager.models.get? comm = some model ∧ ∀ key value, _
  rw [FreshOn] at hfresh
  generalize m.models.get? comm = before, (m.step op).manager.models.get? comm = after,
    framesOn comm (m.step op).frames = frames at hfate hfresh hon ⊢
  -- Only a model that was asked something sends a patch.
  cases hfate with
  | absent => exact absurd hon List.not_mem_nil
  | opened hop hc ho hf => exact absurd hon List.not_mem_nil
  | @asked model r hr =>
    refine ⟨_, rfl, fun key value hkey => ?_⟩
    rcases (hfresh model rfl).patch_current hon hkey with hcurrent | ⟨⟨report, he⟩, hover⟩
    · exact .inl hcurrent
    · rw [he] at hr
      exact .inr ⟨⟨report, status_of_requestOn hr⟩, hover⟩
  | kept hr hs hv hd => exact absurd hon List.not_mem_nil
  | exhausted hop hv hgone => exact absurd (List.mem_singleton.mp hon) nofun
  | ended hop => exact absurd hon List.not_mem_nil

/-- A checkbox on a new comm, with room for one message, that is checked and then unchecked. -/
def uncheckedBox : List SessionEvent :=
  [.commOpen ⟨⟨"c"⟩, "BoolWidgetModel"⟩,
    .commMessage ⟨⟨"c"⟩, .ofJson (.obj [("method", .str "display"), ("view_name", .str "CheckboxView")]), none⟩,
    .ui ⟨1⟩ .click, .ui ⟨1⟩ .click]

/-- What waits is flushed while it is still current. -/
theorem unchecking_is_current :
    let ops := Operation.registerDefaults :: uncheckedBox.map SessionEvent.operation
    let m := ((new (.withCells 1) 1).run ops).1
    let unchecked := OrdMap.ofList [("value", Value.ofBool false)]
    .message ⟨"c"⟩ (.patch unchecked) ⟨some (.cell 0)⟩ ∈ (m.step (.status ⟨"c"⟩ ⟨.idle⟩)).frames ∧
      isOverwritten "value" ((new (.withCells 1) 1).requestsOn ⟨"c"⟩ ops) = false ∧
      ∃ model, (m.step (.status ⟨"c"⟩ ⟨.idle⟩)).manager.models.get? ⟨"c"⟩ = some model ∧
        model.attributes.get? "value" = some (.ofBool false) := by
  intro ops m unchecked
  have hsent : .message ⟨"c"⟩ (.patch unchecked) ⟨some (.cell 0)⟩ ∈
      (m.step (.status ⟨"c"⟩ ⟨.idle⟩)).frames := by decide +kernel
  have hnot : isOverwritten "value" ((new (.withCells 1) 1).requestsOn ⟨"c"⟩ ops) = false := by
    decide +kernel
  obtain ⟨model, hm, hall⟩ := patches_current (.withCells 1) 1 ops (.status ⟨"c"⟩ ⟨.idle⟩) ⟨"c"⟩ unchecked
    ⟨some (.cell 0)⟩ hsent
  refine ⟨hsent, hnot, model, hm, ?_⟩
  rcases hall "value" (.ofBool false) (by decide +kernel) with hcurrent | ⟨_, hover⟩
  · exact hcurrent
  · exact absurd (hnot.symm.trans hover) Bool.false_ne_true

/-- When the backend checks the box before it answers, the flush tells it that the box is unchecked, which the model
itself no longer says. -/
theorem stale_value_flushed :
    let recheck : SessionEvent := .commMessage
      ⟨⟨"c"⟩, .ofJson (.obj [("method", .str "update"), ("state", .obj [("value", .bool true)])]), none⟩
    let events := uncheckedBox ++ [recheck]
    let m := ((withDefaults (.withCells 1) 1).run (events.map SessionEvent.operation)).1
    let outcome := m.step (SessionEvent.status ⟨"c"⟩ ⟨.idle⟩).operation
    outcome.frames =
        [.message ⟨"c"⟩ (.patch (OrdMap.ofList [("value", .ofBool false)])) ⟨some (.cell 0)⟩] ∧
      ∃ model, outcome.manager.models.get? ⟨"c"⟩ = some model ∧
        model.attributes.get? "value" = some (.ofBool true) := by
  decide +kernel

end WidgetSync.Manager
