import WidgetSync.Manager.Operation
import WidgetSync.Proofs.Manager.Teardown

/-! The redundant indexes of a manager agree: the live views, the groups and the subscribers of the models, and
the children of the hosts. -/
namespace WidgetSync

/-- Where a view stands, without what it shows. -/
def Slot.outline (slot : Slot) : CommId × GroupKey × List ViewId × Placement :=
  (slot.view.model, slot.view.group, slot.view.children, slot.placement)

/-- What a model knows of its comm and its views, without its state. -/
def Model.outline (m : Model) : Comm × OrdMap GroupKey (List ViewId) × List ViewId :=
  (m.comm, m.groups, m.subscribers)

namespace Manager

structure Consistent (m : Manager) : Prop where
  forest : Arena.Forest m.views
  /-- A view that was placed under a host is among what the host shows. -/
  hosted : ∀ id slot host, m.views.get? id = some slot → slot.placement = .host host →
    Arena.Hosts m.views host id
  /-- The model of a live view is live and lists the view under the view's group. -/
  registered : ∀ id slot, m.views.get? id = some slot →
    ∃ model, m.models.get? slot.view.model = some model ∧ id ∈ model.viewsIn slot.view.group
  /-- What a model lists is live, and a view of that model. -/
  known : ∀ comm model id, m.models.get? comm = some model → id ∈ model.views →
    ∃ slot, m.views.get? id = some slot ∧ slot.view.model = comm
  tidy : ∀ comm model, m.models.get? comm = some model → model.Tidy
  below_next : ∀ id slot, m.views.get? id = some slot → id.index < m.nextView
  opened : ∀ comm model, m.models.get? comm = some model → model.comm = .opened comm
  reader : m.hub.hasReader = true

theorem new_consistent (notebook : Notebook) (throttle : Nat) : (new notebook throttle).Consistent where
  forest :=
    { placed := fun _ _ ⟨_, hs, _⟩ => nomatch hs
      once := fun _ _ hs => nomatch hs
      after := fun _ _ ⟨_, hs, _⟩ => nomatch hs }
  hosted := fun _ _ _ hs => nomatch hs
  registered := fun _ _ hs => nomatch hs
  known := fun _ _ _ hm => nomatch hm
  tidy := fun _ _ hm => nomatch hm
  below_next := fun _ _ hs => nomatch hs
  opened := fun _ _ hm => nomatch hm
  reader := rfl

namespace Consistent

variable {m m' : Manager}

/-- The owner of a view is the model that lists it. -/
theorem owns (h : m.Consistent) {comm : CommId} {model : Model} (hm : m.models.get? comm = some model)
    (id : ViewId) : m.views.owner id = some comm ↔ id ∈ model.views := by
  rw [Arena.owner, Option.map_eq_some_iff]
  constructor
  · rintro ⟨slot, hs, rfl⟩
    obtain ⟨model', hm', hid⟩ := h.registered id slot hs
    obtain rfl : model = model' := Option.some.inj (hm.symm.trans hm')
    exact Model.mem_views.mpr ⟨_, hid⟩
  · intro hid
    exact h.known comm model id hm hid

theorem attended (h : m.Consistent) : Models.Attended m.views.owner m.models where
  tidy := h.tidy
  opened := h.opened
  owns := fun _ _ hm => h.owns hm

/-- No model lists a view that is not live. -/
theorem not_listed_of_dead (h : m.Consistent) {id : ViewId} (hd : m.views.get? id = none) {comm : CommId}
    {model : Model} (hm : m.models.get? comm = some model) : id ∉ model.views := by
  intro hid
  obtain ⟨slot, hs, _⟩ := h.known comm model id hm hid
  rw [hd] at hs
  exact absurd hs (by simp)

/-- A view is registered once, under the group that it keeps itself. -/
theorem groupOf?_eq (h : m.Consistent) {id : ViewId} {slot : Slot} (hs : m.views.get? id = some slot) {model : Model}
    (hm : m.models.get? slot.view.model = some model) : model.groupOf? id = some slot.view.group := by
  obtain ⟨model', hm', hid⟩ := h.registered id slot hs
  obtain rfl : model = model' := Option.some.inj (hm.symm.trans hm')
  cases hg : model.groupOf? id with
  | none => exact absurd (Model.mem_views.mpr ⟨_, hid⟩) (Model.groupOf?_eq_none_iff.mp hg)
  | some group =>
    have hunique := (Model.views_nodup_iff.mp (h.tidy _ model hm).views_nodup).2
    rw [hunique group slot.view.group id (Model.mem_viewsIn_of_groupOf? hg) hid]

/-- The index that comes next is nobody's. -/
theorem next_dead (h : m.Consistent) : m.views.get? ⟨m.nextView⟩ = none := by
  cases hs : m.views.get? ⟨m.nextView⟩ with
  | none => rfl
  | some slot => exact absurd (h.below_next _ slot hs) (Nat.lt_irrefl _)

end Consistent

/-- Two managers that differ in what is shown and in the states of the models at most. -/
structure Alike (m m' : Manager) : Prop where
  views : ∀ id, (m'.views.get? id).map Slot.outline = (m.views.get? id).map Slot.outline
  models : ∀ comm, (m'.models.get? comm).map Model.outline = (m.models.get? comm).map Model.outline
  nextView : m'.nextView = m.nextView
  throttle : m'.throttle = m.throttle
  reader : m'.hub.hasReader = m.hub.hasReader

namespace Alike

variable {m m' : Manager}

theorem view (ha : Alike m m') {id : ViewId} {slot' : Slot} (hs : m'.views.get? id = some slot') :
    ∃ slot, m.views.get? id = some slot ∧ slot'.view.model = slot.view.model ∧
      slot'.view.group = slot.view.group ∧ slot'.view.children = slot.view.children ∧
      slot'.placement = slot.placement := by
  have hv := ha.views id
  rw [hs, Option.map_some] at hv
  obtain ⟨slot, hslot, ho⟩ := Option.map_eq_some_iff.mp hv.symm
  simp only [Slot.outline, Prod.mk.injEq] at ho
  exact ⟨slot, hslot, ho.1.symm, ho.2.1.symm, ho.2.2.1.symm, ho.2.2.2.symm⟩

theorem model (ha : Alike m m') {comm : CommId} {model' : Model}
    (hm : m'.models.get? comm = some model') :
    ∃ model, m.models.get? comm = some model ∧ model'.comm = model.comm ∧
      model'.groups = model.groups ∧ model'.subscribers = model.subscribers := by
  have hv := ha.models comm
  rw [hm, Option.map_some] at hv
  obtain ⟨model, hmodel, ho⟩ := Option.map_eq_some_iff.mp hv.symm
  simp only [Model.outline, Prod.mk.injEq] at ho
  exact ⟨model, hmodel, ho.1.symm, ho.2.1.symm, ho.2.2.symm⟩

theorem symm (ha : Alike m m') : Alike m' m where
  views := fun id => (ha.views id).symm
  models := fun comm => (ha.models comm).symm
  nextView := ha.nextView.symm
  throttle := ha.throttle.symm
  reader := ha.reader.symm

theorem hosts (ha : Alike m m') {host child : ViewId} (h : Arena.Hosts m.views host child) :
    Arena.Hosts m'.views host child := by
  obtain ⟨slot, hs, hc⟩ := h
  obtain ⟨slot', hs', _, _, hchildren, _⟩ := ha.symm.view hs
  exact ⟨slot', hs', hchildren ▸ hc⟩

end Alike

/-- Consistency is about outlines alone. -/
theorem Consistent.of_alike {m m' : Manager} (h : m.Consistent) (ha : Alike m m') : m'.Consistent where
  forest :=
    { placed := by
        intro host child hc
        obtain ⟨slot, hs, hp⟩ := h.forest.placed host child (ha.symm.hosts hc)
        obtain ⟨slot', hs', _, _, _, hp'⟩ := ha.symm.view hs
        exact ⟨slot', hs', hp'.symm.trans hp⟩
      once := by
        intro host slot' hs'
        obtain ⟨slot, hs, _, _, hc, _⟩ := ha.view hs'
        rw [hc]
        exact h.forest.once host slot hs
      after := fun host child hc => h.forest.after host child (ha.symm.hosts hc) }
  hosted := by
    intro id slot' host hs' hp'
    obtain ⟨slot, hs, _, _, _, hp⟩ := ha.view hs'
    exact ha.hosts (h.hosted id slot host hs (hp.symm.trans hp'))
  registered := by
    intro id slot' hs'
    obtain ⟨slot, hs, hmodel, hgroup, _, _⟩ := ha.view hs'
    obtain ⟨model, hm, hid⟩ := h.registered id slot hs
    obtain ⟨model', hm', _, hg, _⟩ := ha.symm.model hm
    rw [hmodel, hgroup]
    refine ⟨model', hm', ?_⟩
    rw [Model.viewsIn, ← hg]
    exact hid
  known := by
    intro comm model' id hm' hid
    obtain ⟨model, hm, _, hg, _⟩ := ha.model hm'
    rw [Model.views, hg] at hid
    obtain ⟨slot, hs, ho⟩ := h.known comm model id hm hid
    obtain ⟨slot', hs', hmodel, _⟩ := ha.symm.view hs
    exact ⟨slot', hs', hmodel.symm.trans ho⟩
  tidy := by
    intro comm model' hm'
    obtain ⟨model, hm, _, hg, hsub⟩ := ha.model hm'
    exact (h.tidy comm model hm).of_same hg hsub
  below_next := by
    intro id slot' hs'
    obtain ⟨slot, hs, _⟩ := ha.view hs'
    rw [ha.nextView]
    exact h.below_next id slot hs
  opened := by
    intro comm model' hm'
    obtain ⟨model, hm, hc, _⟩ := ha.model hm'
    exact hc.trans (h.opened comm model hm)
  reader := ha.reader.trans h.reader

end Manager

end WidgetSync
