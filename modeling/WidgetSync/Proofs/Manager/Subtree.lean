import WidgetSync.Proofs.Manager.Run

/-! What goes when a view goes, or a comm: exactly the subtrees of the views in question, and the models that
have no views outside of them. -/
namespace WidgetSync

/-- A model after a walk that it outlasts: its views off the walk are registered as before, and its state is the
same. -/
structure Model.Outlasts (walk : List ViewId) (m m' : Model) : Prop where
  viewsIn : ∀ group, m'.viewsIn group = (m.viewsIn group).filter (· ∉ walk)
  typeName : m'.typeName = m.typeName
  comm : m'.comm = m.comm
  attributes : m'.attributes = m.attributes
  css : m'.css = m.css
  pending : m'.pending = m.pending
  throttle : m'.throttle = m.throttle
  buffer : m'.buffer = m.buffer
  updating : m'.updating = m.updating

namespace Models

/-- The models and the closes after a walk: a model goes, with one close, if it had views and all of them were
on the walk, and every other model stays. -/
structure Settled (models : Models) (walk : List ViewId) (after : Models) (frames : List Frame) :
    Prop where
  dead : ∀ comm, models.get? comm = none →
    after.get? comm = none ∧ frames.count (.close comm) = 0
  dropped : ∀ comm model, models.get? comm = some model → model.views ≠ [] →
    model.views ⊆ walk → after.get? comm = none ∧ frames.count (.close comm) = 1
  kept : ∀ comm model, models.get? comm = some model → ¬(model.views ≠ [] ∧ model.views ⊆ walk) →
    (∃ model', after.get? comm = some model' ∧ model.Outlasts walk model') ∧
      frames.count (.close comm) = 0

variable {owner : ViewId → Option CommId} {models : Models}

theorem Attended.outlasts (ha : Attended owner models) {comm : CommId} {model : Model}
    (hm : models.get? comm = some model) (walk : List ViewId) :
    model.Outlasts walk (model.leaveAll (ownOn owner comm walk)) := by
  have hviews : ∀ group, (model.leaveAll (ownOn owner comm walk)).viewsIn group =
      (model.viewsIn group).filter (· ∉ walk) := by
    intro group
    rw [Model.viewsIn_leaveAll (ha.tidy comm model hm)]
    refine List.filter_congr fun x hx => ?_
    -- Every view that the model lists is its own, so that it matters only whether the walk has it.
    have hown : owner x = some comm := (ha.owns comm model hm x).mpr (Model.mem_views.mpr ⟨group, hx⟩)
    simp only [mem_ownOn, hown, and_true]
  obtain ⟨h1, h2, h3, h4, h5, h6, h7, h8⟩ := model.leaveAll_keeps (ownOn owner comm walk)
  exact ⟨hviews, h1, h2, h3, h4, h5, h6, h7, h8⟩

theorem Attended.settled (ha : Attended owner models) {walk : List ViewId} (hn : walk.Nodup) :
    Settled models walk (departures owner models walk).1 (closings owner models [] walk) where
  dead := by
    intro comm hd
    exact ⟨get?_departures_of_dead hd walk, closings_of_dead hd walk []⟩
  dropped := by
    intro comm model hm hne hsub
    have hget := get?_departures hm (ha.tidy comm model hm) hn fun x _ => ha.owns comm model hm x
    have hcount := count_closings ha hm hn
    rw [if_pos ⟨hne, hsub⟩] at hget hcount
    exact ⟨hget, hcount⟩
  kept := by
    intro comm model hm hno
    have hget := get?_departures hm (ha.tidy comm model hm) hn fun x _ => ha.owns comm model hm x
    have hcount := count_closings ha hm hn
    rw [if_neg hno] at hget hcount
    exact ⟨⟨_, hget, ha.outlasts hm walk⟩, hcount⟩

end Models

/-- Off a subtree, only the host of its root misses anything. -/
theorem Arena.Forest.without_subtree {views : Arena} (hf : views.Forest) {id x : ViewId}
    {slot other : Slot} (hs : views.get? id = some slot) (hx : x ∉ views.subtree id)
    (ho : views.get? x = some other) :
    other.without (views.subtree id) =
      if slot.placement = .host x then { other with view := other.view.removeChild id } else other := by
  have hiff : ∀ c ∈ other.view.children, c ∈ views.subtree id ↔ c = id := by
    intro c hc
    constructor
    · intro hm
      rcases Relation.ReflTransGen.cases_tail (hf.below_of_mem_subtree hm) with he | ⟨h, hh, hhc⟩
      · exact he
      · -- Another view of the subtree has its host there, which is not this one.
        obtain rfl := hf.host_unique hhc ⟨other, ho, hc⟩
        exact absurd (hf.mem_subtree_of_below hh hs) hx
    · rintro rfl
      exact hf.mem_subtree_self hs
  by_cases hp : slot.placement = .host x
  · rw [if_pos hp]
    have hfilter : other.view.children.filter (· ∉ views.subtree id) =
        other.view.children.filter (· ≠ id) := by
      refine List.filter_congr fun c hc => ?_
      simp only [hiff c hc, ne_eq]
    simp only [Slot.without, View.removeChild, hfilter]
  · rw [if_neg hp]
    refine Slot.without_eq_self fun c hc hm => hp ?_
    obtain rfl := (hiff c hc).mp hm
    obtain ⟨slot', hs', hpl⟩ := hf.placed x c ⟨other, ho, hc⟩
    obtain rfl : slot = slot' := Option.some.inj (hs.symm.trans hs')
    exact hpl

namespace Manager

variable {m : Manager}

theorem takeDown_frames {walk : List ViewId} (ha : Models.Attended m.views.owner m.models)
    (hn : walk.Nodup) : (m.takeDown walk).2 = Models.closings m.views.owner m.models [] walk :=
  Models.departures_frames ha hn

/-- In every state that operations reach from a new manager: to take down a live view takes out its subtree,
to close a live comm takes out the subtrees of its model's views, and with them go the models that have no
other views, each with one close at its last view. Where there is no such view or comm nothing happens. -/
theorem teardown_takes_subtrees (notebook : Notebook) (throttle : Nat) (ops : List Operation) :
    let m := ((new notebook throttle).run ops).1
    (∀ id slot, m.views.get? id = some slot →
      let walk := m.views.subtree id
      -- The walk is in post-order and meets what is below the view, each view once.
      (walk = slot.view.children.flatMap m.views.subtree ++ [id] ∧ walk.Nodup ∧
        ∀ x, x ∈ walk ↔ m.views.Below id x) ∧
      -- The recursion comes to an end by itself, before the fuel does.
      (∀ fuel, m.views.size ≤ fuel → removeTree fuel m id = m.removeView id) ∧
      ∃ after, m.step (.removeView id) =
          ⟨after, Models.closings m.views.owner m.models [] walk, .ok (.removed true)⟩ ∧
        -- Every other view is as it was, but for the host of the view, which no longer shows it.
        (∀ x, after.views.get? x = if x ∈ walk then none else (m.views.get? x).map fun other =>
          if slot.placement = .host x then { other with view := other.view.removeChild id }
          else other) ∧
        Models.Settled m.models walk after.models (Models.closings m.views.owner m.models [] walk)) ∧
    (∀ id, m.views.get? id = none → m.step (.removeView id) = ⟨m, [], .ok (.removed false)⟩) ∧
    (∀ comm model, m.models.get? comm = some model →
      -- The views go in the order of the subtrees, each where it comes first.
      let walk := (model.views.flatMap m.views.subtree).eraseDups
      let others := m.models.erase comm
      (walk.Nodup ∧ ∀ x, x ∈ walk ↔ ∃ root ∈ model.views, m.views.Below root x) ∧
      ∃ after frames, m.step (.closeComm comm) = ⟨after, frames, .ok .done⟩ ∧
        frames = Models.closings m.views.owner others [] walk ∧
        (∀ x, after.views.get? x = if x ∈ walk then none else (m.views.get? x).map (·.without walk)) ∧
        after.models.get? comm = none ∧ .close comm ∉ frames ∧
        Models.Settled others walk after.models frames) ∧
    ∀ comm, m.models.get? comm = none → m.step (.closeComm comm) = ⟨m, [], .ok .done⟩ := by
  intro m
  have h : m.Consistent := (new_consistent notebook throttle).run ops
  refine ⟨?_, ?_, ?_, ?_⟩
  · intro id slot hs walk
    have hn : walk.Nodup := h.forest.subtree_nodup id
    have hlive : m.views.contains id = true := OrdMap.contains_iff.mpr ⟨slot, hs⟩
    have hframes := takeDown_frames h.attended hn
    refine ⟨⟨h.forest.subtree_eq hs, hn, fun x => h.forest.mem_subtree hs⟩, ?_, ?_⟩
    · intro fuel hfuel
      rw [removeView_eq h.forest]
      exact removeTree_eq h.forest (Nat.le_trans (m.views.reach_le_size id) hfuel)
    · refine ⟨(m.takeDown walk).1, ?_, fun x => ?_, h.attended.settled hn⟩
      · rw [step, removeView_eq h.forest, hlive, ← hframes]
      · show (m.views.without walk).get? x = _
        rw [Arena.get?_without]
        by_cases hx : x ∈ walk
        · rw [if_pos hx, if_pos hx]
        · rw [if_neg hx, if_neg hx]
          refine Option.map_congr fun other ho => ?_
          exact h.forest.without_subtree hs hx (Option.mem_def.mp ho)
  · intro id hd
    have hdead : m.views.contains id = false := OrdMap.contains_eq_false_iff.mpr hd
    rw [step, removeView_eq h.forest, hdead, Arena.subtree_of_dead hd, takeDown_nil]
  · intro comm model hm walk others
    have hwalk : walk = m.views.sweep model.views := (h.forest.sweep_eq model.views).symm
    have hn : walk.Nodup := hwalk ▸ h.forest.sweep_nodup model.views
    have hlive {x : ViewId} (hx : x ∈ model.views) : ∃ slot, m.views.get? x = some slot := by
      obtain ⟨slot, hs, _⟩ := h.known comm model x hm hx
      exact ⟨slot, hs⟩
    have hall : model.views ⊆ walk := hwalk ▸ h.views_subset_sweep hm
    have ha : Models.Attended m.views.owner others := h.attended_of_spared (h.spared_erase hm hall)
    have hframes := Models.departures_frames ha hn
    have hsettled := ha.settled hn
    have hdead : others.get? comm = none := by rw [OrdMap.get?_erase, if_pos rfl]
    obtain ⟨hgone, hcount⟩ := hsettled.dead comm hdead
    refine ⟨⟨hn, fun x => ?_⟩, (takeDown { m with models := others } walk).1, _, ?_, rfl, fun x => ?_,
      hgone, List.count_eq_zero.mp hcount, hsettled⟩
    · rw [List.mem_eraseDups, List.mem_flatMap]
      constructor
      · rintro ⟨root, hr, hx⟩
        exact ⟨root, hr, h.forest.below_of_mem_subtree hx⟩
      · rintro ⟨root, hr, hx⟩
        obtain ⟨slot, hs⟩ := hlive hr
        exact ⟨root, hr, h.forest.mem_subtree_of_below hx hs⟩
    · rw [step, closeComm_of_live h.forest hm, ← hwalk, ← hframes]
      rfl
    · show (m.views.without walk).get? x = _
      rw [Arena.get?_without]
  · intro comm hd
    rw [step, closeComm_of_dead hd]

end Manager

end WidgetSync
