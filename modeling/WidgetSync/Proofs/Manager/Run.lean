import WidgetSync.Proofs.Manager.Step

/-! Runs of a manager. Whatever is asked of it, in any order and with any failures, its indexes agree. -/
namespace WidgetSync.Manager

/-- The manager after the operations, and all frames that they sent. -/
def run (m : Manager) : List Operation → Manager × List Frame
  | [] => (m, [])
  | op :: rest =>
    let outcome := m.step op
    let (m, more) := outcome.manager.run rest
    (m, outcome.frames ++ more)

theorem run_cons (m : Manager) (op : Operation) (rest : List Operation) :
    m.run (op :: rest) =
      (((m.step op).manager.run rest).1,
        (m.step op).frames ++ ((m.step op).manager.run rest).2) := rfl

theorem run_append (m : Manager) (ops more : List Operation) :
    (m.run (ops ++ more)).1 = ((m.run ops).1.run more).1 := by
  induction ops generalizing m with
  | nil => rfl
  | cons op rest ih => rw [List.cons_append, run_cons, run_cons, ih]

variable {m : Manager}

theorem Consistent.step (h : m.Consistent) (op : Operation) : (m.step op).manager.Consistent := by
  rcases step_moves h op with ⟨request, opened, _, ho, he, _⟩ |
    ⟨cell, message, executed, _, hx, he, _⟩ | hmoves
  · rw [he]
    exact h.openComm ho
  · rw [he]
    exact h.of_alike (execute_alike hx)
  · exact h.moves hmoves

theorem Consistent.run (h : m.Consistent) (ops : List Operation) : (m.run ops).1.Consistent := by
  induction ops generalizing m with
  | nil => exact h
  | cons op rest ih =>
    rw [run_cons]
    exact ih (h.step op)

theorem Consistent.later_step (h : m.Consistent) (op : Operation) : Later m (m.step op).manager := by
  rcases step_moves h op with ⟨request, opened, _, ho, he, _⟩ |
    ⟨cell, message, executed, _, hx, he, _⟩ | hmoves
  · obtain ⟨_, kind, rfl⟩ := openComm_ok ho
    rw [he]
    exact ⟨rfl, Nat.le_refl _, fun _ _ hd => hd⟩
  · rw [he]
    exact (execute_alike hx).later
  · exact h.later_moves hmoves

theorem Consistent.later_run (h : m.Consistent) (ops : List Operation) : Later m (m.run ops).1 := by
  induction ops generalizing m with
  | nil => exact .refl m
  | cons op rest ih =>
    rw [run_cons]
    exact (h.later_step op).trans (ih (h.step op))

/-- What asks for the model of a view finds it, or there is no such view. -/
theorem Consistent.modelOf_cases (h : m.Consistent) (id : ViewId) :
    (∃ view model, m.modelOf id = .ok (view, model)) ∨
      (m.views.get? id = none ∧ m.modelOf id = .error (.unknownView id)) := by
  rw [modelOf]
  cases hs : m.views.get? id with
  | none => exact .inr ⟨rfl, rfl⟩
  | some slot =>
    obtain ⟨model, hm, _⟩ := h.registered id slot hs
    refine .inl ⟨slot.view, model, ?_⟩
    simp only [hm]

theorem Consistent.change_known (h : m.Consistent) (view : ViewId) (changes : Attributes)
    (comm : CommId) : m.change view changes ≠ .error (.unknownComm comm) := by
  rcases h.modelOf_cases view with ⟨v, model, hf⟩ | ⟨_, he⟩
  · obtain ⟨m', frames, state, hc, _⟩ := change_moves hf changes
    rw [hc]
    exact nofun
  · rw [change, he]
    simp

theorem Consistent.handleUi_known (h : m.Consistent) (view : ViewId) (event : UiEvent)
    (comm : CommId) : m.handleUi view event ≠ .error (.unknownComm comm) := by
  rcases h.modelOf_cases view with ⟨v, model, hf⟩ | ⟨_, he⟩
  · obtain ⟨m', frames, hc, _⟩ := handleUi_moves hf event
    rw [hc]
    exact nofun
  · rw [handleUi, he]
    simp

/-- In every state that operations reach from a new manager the redundant indexes agree, no index of a view
is used twice, and no live view is without its model. -/
theorem arena_consistent (notebook : Notebook) (throttle : Nat) (ops : List Operation) :
    let m := ((new notebook throttle).run ops).1
    -- A live view is listed by its live model once, under the group that it keeps itself.
    (∀ id slot, m.views.get? id = some slot → ∃ model,
      m.models.get? slot.view.model = some model ∧ id ∈ model.viewsIn slot.view.group ∧
        model.views.count id = 1) ∧
    -- A model lists and refreshes its own live views, the same in both lists, and no empty group.
    (∀ comm model, m.models.get? comm = some model →
      (∀ id, id ∈ model.views ∨ id ∈ model.subscribers →
        ∃ slot, m.views.get? id = some slot ∧ slot.view.model = comm) ∧
      model.subscribers.Nodup ∧ model.subscribers.Perm model.views ∧
      ∀ group, model.groups.get? group ≠ some []) ∧
    -- A host shows live views that were placed under it, each younger than the host,
    (∀ host slot, m.views.get? host = some slot → ∀ child ∈ slot.view.children,
      host.index < child.index ∧
        ∃ cslot, m.views.get? child = some cslot ∧ cslot.placement = .host host) ∧
    -- and shows each of those once.
    (∀ id slot host, m.views.get? id = some slot → slot.placement = .host host →
      ∃ hslot, m.views.get? host = some hslot ∧ hslot.view.children.count id = 1) ∧
    (∀ id slot, m.views.get? id = some slot → id.index < m.nextView) ∧
    -- Whatever follows, indexes are given out upwards, and a view that is gone stays gone.
    (∀ more, m.nextView ≤ (m.run more).1.nextView ∧ ∀ id, id.index < m.nextView →
      m.views.get? id = none → (m.run more).1.views.get? id = none) ∧
    (∀ view comm, (∀ changes, m.change view changes ≠ .error (.unknownComm comm)) ∧
      ∀ event, m.handleUi view event ≠ .error (.unknownComm comm)) := by
  intro m
  have h : m.Consistent := (new_consistent notebook throttle).run ops
  refine ⟨?_, ?_, ?_, ?_, h.below_next, ?_, ?_⟩
  · intro id slot hs
    obtain ⟨model, hm, hid⟩ := h.registered id slot hs
    have ht := h.tidy _ model hm
    refine ⟨model, hm, hid, ?_⟩
    exact List.count_eq_one_of_mem ht.views_nodup (Model.mem_views.mpr ⟨_, hid⟩)
  · intro comm model hm
    have ht := h.tidy comm model hm
    refine ⟨fun id hid => h.known comm model id hm ?_, ht.subscribers_nodup, ?_, ht.group_ne_nil⟩
    · rcases hid with hid | hid
      · exact hid
      · exact (ht.mem_subscribers id).mp hid
    · exact (List.perm_ext_iff_of_nodup ht.subscribers_nodup ht.views_nodup).mpr ht.mem_subscribers
  · intro host slot hs child hc
    have hhosts : Arena.Hosts m.views host child := ⟨slot, hs, hc⟩
    exact ⟨h.forest.after host child hhosts, h.forest.placed host child hhosts⟩
  · intro id slot host hs hp
    obtain ⟨hslot, hh, hc⟩ := h.hosted id slot host hs hp
    exact ⟨hslot, hh, List.count_eq_one_of_mem (h.forest.once host hslot hh) hc⟩
  · intro more
    have hl := h.later_run more
    exact ⟨hl.next_le, hl.dead⟩
  · intro view comm
    exact ⟨fun changes => h.change_known view changes comm,
      fun event => h.handleUi_known view event comm⟩

end WidgetSync.Manager
