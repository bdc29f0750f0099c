import WidgetSync.Manager.Removal
import WidgetSync.Proofs.Manager.Departure

/-! Taking views down, without the recursion. However deep the views are nested, taking one down is one pass
over the walk below it, and taking several down is one pass over the sweep of their subtrees. -/
namespace WidgetSync

/-- Takes a view out of the area that it was placed in, if it was placed in one. -/
def Notebook.without (n : Notebook) (id : ViewId) : Option Placement → Notebook
  | some (.area group) => n.modifyArea group (·.remove id)
  | some (.host _) => n
  | none => n

namespace Arena

variable {views : Arena}

def placement (views : Arena) (id : ViewId) : Option Placement := (views.get? id).map (·.placement)

/-- The notebook without the views of a walk. -/
def clear (views : Arena) (notebook : Notebook) (walk : List ViewId) : Notebook :=
  walk.foldl (fun notebook id => notebook.without id (views.placement id)) notebook

theorem clear_append (views : Arena) (notebook : Notebook) (xs ys : List ViewId) :
    views.clear notebook (xs ++ ys) = views.clear (views.clear notebook xs) ys :=
  List.foldl_append

theorem clear_congr {other : Arena} {walk : List ViewId}
    (h : ∀ x ∈ walk, views.placement x = other.placement x) (notebook : Notebook) :
    views.clear notebook walk = other.clear notebook walk := by
  induction walk generalizing notebook with
  | nil => rfl
  | cons id rest ih =>
    have hid := h id List.mem_cons_self
    have hrest := ih fun x hx => h x (List.mem_cons_of_mem _ hx)
    simp only [clear, List.foldl_cons, hid]
    exact hrest _

/-- Views that hosts show are in no area. -/
theorem clear_of_hosted {walk : List ViewId}
    (h : ∀ x ∈ walk, ∃ host, views.placement x = some (.host host)) (notebook : Notebook) :
    views.clear notebook walk = notebook := by
  induction walk with
  | nil => rfl
  | cons id rest ih =>
    obtain ⟨host, hh⟩ := h id List.mem_cons_self
    simp only [clear, List.foldl_cons, hh, Notebook.without]
    exact ih fun x hx => h x (List.mem_cons_of_mem _ hx)

theorem owner_without {gone : List ViewId} {id : ViewId} (h : id ∉ gone) :
    (views.without gone).owner id = views.owner id := by
  rw [owner, owner, get?_without, if_neg h]
  cases views.get? id <;> rfl

theorem placement_without {gone : List ViewId} {id : ViewId} (h : id ∉ gone) :
    (views.without gone).placement id = views.placement id := by
  rw [placement, placement, get?_without, if_neg h]
  cases views.get? id <;> rfl

/-- Everything below a hosted view is hosted. -/
theorem Forest.hosted_of_mem_subtree (hf : views.Forest) {host child x : ViewId}
    (hc : views.Hosts host child) (hx : x ∈ views.subtree child) :
    ∃ h, views.placement x = some (.host h) := by
  have hosts_placement {a b : ViewId} (hab : views.Hosts a b) :
      views.placement b = some (.host a) := by
    obtain ⟨slot, hs, hp⟩ := hf.placed a b hab
    rw [placement, hs, Option.map_some, hp]
  rcases Relation.ReflTransGen.cases_tail (hf.below_of_mem_subtree hx) with he | ⟨h, _, hh⟩
  · exact ⟨host, he ▸ hosts_placement hc⟩
  · exact ⟨h, hosts_placement hh⟩

end Arena

namespace Manager

variable {m : Manager}

/-- The manager without the views of a walk, and the closes that their going brings about. -/
def takeDown (m : Manager) (walk : List ViewId) : Manager × List Frame :=
  let (models, frames) := Models.departures m.views.owner m.models walk
  ({ m with
      notebook := m.views.clear m.notebook walk
      models
      views := m.views.without walk }, frames)

theorem takeDown_nil (m : Manager) : m.takeDown [] = (m, []) := by
  simp only [takeDown, Models.departures, Arena.clear, List.foldl_nil, Arena.without_nil]

/-- One walk after another is one walk, unless they meet. -/
theorem takeDown_append (m : Manager) {xs ys : List ViewId} (h : List.Disjoint xs ys) :
    m.takeDown (xs ++ ys) =
      (((m.takeDown xs).1.takeDown ys).1, (m.takeDown xs).2 ++ ((m.takeDown xs).1.takeDown ys).2) := by
  have howner : ∀ y ∈ ys, (m.views.without xs).owner y = m.views.owner y :=
    fun y hy => Arena.owner_without fun hx => h hx hy
  have hplace : ∀ y ∈ ys, (m.views.without xs).placement y = m.views.placement y :=
    fun y hy => Arena.placement_without fun hx => h hx hy
  simp only [takeDown, Models.departures_append, Models.departures_congr howner, Arena.clear_append,
    Arena.clear_congr hplace, Arena.without_without]

/-- Detaching a view takes it out of the arena, and out of what its host lists. -/
theorem detach_eq {m : Manager} (hf : m.views.Forest) {id : ViewId} {slot : Slot}
    (hs : m.views.get? id = some slot) :
    m.detach id slot.placement =
      { m with notebook := m.views.clear m.notebook [id], views := m.views.without [id] } := by
  -- Only the host that a view was placed under lists it.
  have hlisted {x : ViewId} {xslot : Slot} (hx : m.views.get? x = some xslot)
      (hc : id ∈ xslot.view.children) : slot.placement = .host x := by
    obtain ⟨slot', hs', hp⟩ := hf.placed x id ⟨xslot, hx, hc⟩
    rw [hs] at hs'
    obtain rfl := Option.some.inj hs'
    exact hp
  have hother {x : ViewId} {xslot : Slot} (hx : m.views.get? x = some xslot)
      (hne : slot.placement ≠ .host x) : xslot.without [id] = xslot := by
    refine Slot.without_eq_self fun c hc hci => ?_
    obtain rfl := List.mem_singleton.mp hci
    exact hne (hlisted hx hc)
  have hplace : m.views.placement id = some slot.placement := by
    rw [Arena.placement, hs, Option.map_some]
  cases hp : slot.placement with
  | area group =>
    have hviews : m.views.erase id = m.views.without [id] := by
      refine OrdMap.ext fun x => ?_
      rw [OrdMap.get?_erase, Arena.get?_without]
      by_cases he : id = x
      · simp [he]
      · rw [if_neg he, if_neg fun h => he (List.mem_singleton.mp h).symm]
        -- No host lists a view that is in an area.
        cases hx : m.views.get? x with
        | none => rfl
        | some xslot =>
          have hsame := hother hx (by rw [hp]; exact nofun)
          rw [Option.map_some, hsame]
    simp only [detach, hviews, Arena.clear, List.foldl_cons, List.foldl_nil, hplace, hp,
      Notebook.without]
  | host host =>
    have hviews : ((m.views.erase id).modify host fun s =>
        { s with view := s.view.removeChild id }) = m.views.without [id] := by
      refine OrdMap.ext fun x => ?_
      rw [OrdMap.get?_modify, OrdMap.get?_erase, Arena.get?_without]
      by_cases he : id = x
      · simp [he]
      · rw [if_neg he, if_neg fun h => he (List.mem_singleton.mp h).symm]
        cases hx : m.views.get? x with
        | none => simp
        | some xslot =>
          by_cases hh : host = x
          · rw [if_pos hh, Option.map_some, Option.map_some]
            simp [View.removeChild, Slot.without]
          · have hsame := hother hx (by rw [hp]; exact fun h => hh (Placement.host.inj h))
            rw [if_neg hh, Option.map_some, hsame]
    simp only [detach, modifyView, hviews, Arena.clear, List.foldl_cons, List.foldl_nil, hplace, hp,
      Notebook.without]

theorem deregister_eq (m : Manager) (comm : CommId) (id : ViewId) :
    m.deregister comm id =
      ({ m with models := (m.models.depart comm id).1 }, (m.models.depart comm id).2) := by
  rw [deregister, Models.depart]
  cases hm : m.models.get? comm with
  | none => rfl
  | some model =>
    have hleave : ((model.unsubscribe id).removeView id).1 = model.leave id := rfl
    by_cases hv : (model.leave id).hasViews = true
    · simp only [hleave, if_pos hv, setModel]
    · simp only [hleave, if_neg hv]

/-- If a way to take down one view is a walk, then taking down several is a sweep. -/
theorem removeEach_eq {remove : Manager → ViewId → Manager × List Frame} {bound : Nat}
    (hremove : ∀ m id, Arena.Forest m.views → Arena.reach m.views id ≤ bound →
      remove m id = m.takeDown (Arena.subtree m.views id))
    {m : Manager} (hf : m.views.Forest) (roots : List ViewId)
    (hr : ∀ root ∈ roots, m.views.reach root ≤ bound) :
    removeEach remove m roots = m.takeDown (m.views.sweep roots) := by
  induction roots generalizing m with
  | nil => exact m.takeDown_nil.symm
  | cons root rest ih =>
    let gone := m.views.subtree root
    -- The rest is taken down in a smaller forest, for which the bound still holds.
    have hroot := hremove m root hf (hr root List.mem_cons_self)
    have hrest : removeEach remove (m.takeDown gone).1 rest =
        (m.takeDown gone).1.takeDown ((m.views.without gone).sweep rest) := by
      refine ih (hf.without gone) fun r hm => ?_
      have h1 := m.views.reach_without_le gone r
      have h2 := hr r (List.mem_cons_of_mem _ hm)
      exact Nat.le_trans h1 h2
    have hsep : List.Disjoint gone ((m.views.without gone).sweep rest) := by
      intro x hx hy
      have hn := hf.sweep_nodup (root :: rest)
      exact (List.nodup_append.mp hn).2.2 x hx x hy rfl
    rw [Arena.sweep, takeDown_append m hsep, removeEach, hroot]
    simp only [hrest, gone]

/-- A walk that ends with its host: the host is detached first and deregistered last. -/
theorem takeDown_snoc {walk : List ViewId} {id : ViewId} (hid : id ∉ walk)
    (hhosted : ∀ x ∈ walk, ∃ host, Arena.placement m.views x = some (.host host)) {slot : Slot}
    (hs : m.views.get? id = some slot) :
    let detached : Manager :=
      { m with notebook := m.views.clear m.notebook [id], views := m.views.without [id] }
    let last := (detached.takeDown walk).1.deregister slot.view.model id
    m.takeDown (walk ++ [id]) = (last.1, (detached.takeDown walk).2 ++ last.2) := by
  intro detached last
  have hoff : ∀ x ∈ walk, x ∉ [id] := by
    intro x hx hxid
    exact hid (List.mem_singleton.mp hxid ▸ hx)
  have howner : m.views.owner id = some slot.view.model := by
    rw [Arena.owner, hs, Option.map_some]
  have hmodels : Models.departures (m.views.without [id]).owner m.models walk =
      Models.departures m.views.owner m.models walk :=
    Models.departures_congr (fun x hx => Arena.owner_without (hoff x hx)) m.models
  -- Only the host itself may be in an area, so that it does not matter when it leaves it.
  have hnotebook : (m.views.without [id]).clear (m.views.clear m.notebook [id]) walk =
      m.views.clear m.notebook (walk ++ [id]) := by
    rw [Arena.clear_congr fun x hx => Arena.placement_without (hoff x hx), Arena.clear_append,
      Arena.clear_of_hosted hhosted, Arena.clear_of_hosted hhosted]
  have hviews : (m.views.without [id]).without walk = m.views.without (walk ++ [id]) := by
    rw [Arena.without_without]
    apply Arena.without_congr
    intro x
    rw [List.mem_append, List.mem_append, or_comm]
  simp only [last, takeDown, deregister_eq, detached, hmodels, hnotebook, hviews,
    Models.departures_append, howner, Option.elim_some, Models.departures, List.append_nil]

/-- Taking down a view takes down the walk below it, whatever fuel is left over. -/
theorem removeTree_eq {fuel : Nat} {m : Manager} (hf : m.views.Forest) {id : ViewId}
    (h : m.views.reach id ≤ fuel) :
    removeTree fuel m id = m.takeDown (m.views.subtree id) := by
  induction fuel generalizing m id with
  | zero =>
    cases hs : m.views.get? id with
    | none =>
      rw [Arena.subtree_of_dead hs, takeDown_nil]
      rfl
    | some slot =>
      have hpos := Arena.reach_pos hs
      omega
  | succ fuel ih =>
    cases hs : m.views.get? id with
    | none => rw [Arena.subtree_of_dead hs, takeDown_nil, removeTree, hs]
    | some slot =>
      have hosts {c : ViewId} (hc : c ∈ slot.view.children) : m.views.Hosts id c := ⟨slot, hs, hc⟩
      let walk := slot.view.children.flatMap m.views.subtree
      have hid : id ∉ walk := by
        intro hx
        obtain ⟨c, hc, hxc⟩ := List.mem_flatMap.mp hx
        exact hf.not_mem_subtree_child (hosts hc) hxc
      have hhosted : ∀ x ∈ walk, ∃ host, m.views.placement x = some (.host host) := by
        intro x hx
        obtain ⟨c, hc, hxc⟩ := List.mem_flatMap.mp hx
        exact hf.hosted_of_mem_subtree (hosts hc) hxc
      -- The view is detached first, and its children are then taken down around it.
      have hdetach := detach_eq hf hs
      have hchildren : removeEach (removeTree fuel) (m.detach id slot.placement) slot.view.children =
          (m.detach id slot.placement).takeDown walk := by
        have hsweep : (m.views.without [id]).sweep slot.view.children = walk := hf.sweep_children hs
        rw [hdetach, ← hsweep]
        refine removeEach_eq (fun m id hf h => ih hf h) (hf.without [id]) _ fun c hc => ?_
        -- A child sees fewer views ahead than its host, so that the fuel suffices for it.
        have h1 := m.views.reach_without_le [id] c
        have h2 := hf.reach_lt (hosts hc)
        show Arena.reach (m.views.without [id]) c ≤ fuel
        omega
      rw [hf.subtree_eq hs, takeDown_snoc hid hhosted hs, removeTree, hs]
      simp only [hchildren]
      rw [hdetach]

theorem removeView_eq {m : Manager} (hf : m.views.Forest) (id : ViewId) :
    m.removeView id = m.takeDown (m.views.subtree id) :=
  removeTree_eq hf (m.views.reach_le_size id)

theorem closeComm_of_live {m : Manager} (hf : m.views.Forest) {comm : CommId} {model : Model}
    (h : m.models.get? comm = some model) :
    m.closeComm comm =
      ({ m with models := m.models.erase comm } : Manager).takeDown (m.views.sweep model.views) := by
  -- The model goes first, and the arena is still whole.
  let left : Manager := { m with models := m.models.erase comm }
  have hleft : left.views.Forest := hf
  have heach := removeEach_eq (fun m id hf _ => removeView_eq hf id) hleft model.views
    fun root _ => m.views.reach_le_size root
  rw [closeComm, h]
  exact heach

theorem closeComm_of_dead {m : Manager} {comm : CommId} (h : m.models.get? comm = none) :
    m.closeComm comm = (m, []) := by
  rw [closeComm, h]

end Manager

end WidgetSync
