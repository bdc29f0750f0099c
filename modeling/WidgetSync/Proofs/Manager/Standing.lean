import WidgetSync.Proofs.Manager.Shelving

/-! Where views stand on the page. A view stays where it was placed for as long as it is live, and areas that list views
are shown. So each live view stands in the subtree of one view that a shown area lists, and of no other. -/
namespace WidgetSync

theorem Notebook.Revealed.clear {n : Notebook} (h : n.Revealed) (views : Arena) (walk : List ViewId) :
    (views.clear n walk).Revealed := by
  induction walk generalizing n with
  | nil => exact h
  | cons id rest ih =>
    have hfirst : (n.without id (views.placement id)).Revealed := by
      rcases views.placement id with _ | g | host
      · exact h
      · exact h.remove id g
      · exact h
    exact ih hfirst

namespace Manager

variable {m m' : Manager} {made : List (CommId × Attributes)} {frames : List Frame} {astray : ViewId → Prop}

/-! ### Views stay where they were placed -/

/-- An old view that is live was live before, and in the same place. -/
def Stays (m m' : Manager) : Prop :=
  ∀ id slot', m'.views.get? id = some slot' → id.index < m.nextView →
    ∃ slot, m.views.get? id = some slot ∧ slot.placement = slot'.placement

theorem Stays.refl (m : Manager) : Stays m m := fun _ slot' hs _ => ⟨slot', hs, rfl⟩

theorem Alike.stays (ha : Alike m m') : Stays m m' := by
  intro id slot' hs' _
  obtain ⟨slot, hs, _, _, _, hp⟩ := ha.view hs'
  exact ⟨slot, hs, hp.symm⟩

theorem takeDown_stays (m : Manager) (models : Models) (walk : List ViewId) :
    Stays m (takeDown { m with models } walk).1 := by
  intro id slot' hs' _
  obtain ⟨_, slot, hs, rfl⟩ := Arena.get?_without_eq_some.mp hs'
  exact ⟨slot, hs, rfl⟩

theorem Consistent.stays_move (h : m.Consistent) (mv : Move m m' made frames) : Stays m m' := by
  cases mv with
  | around ha => exact ha.alike.stays
  | ask hm ops ho => exact (alike_setModel hm (run_outline ho)).stays
  | draw f hf => exact (alike_draw hf).stays
  | @place comm _ placement hm hp kind group =>
    intro id slot' hs' hid
    rcases live_of_place kind comm group (h.next_not_host hp) hs' with ⟨rfl, _⟩ | ⟨slot, hs, rfl⟩
    · exact absurd hid (Nat.lt_irrefl _)
    · exact ⟨slot, hs, (adopt_keeps slot id placement _).2.2.symm⟩
  | remove id =>
    rw [removeView_eq h.forest]
    exact takeDown_stays m m.models _
  | close comm =>
    cases hm : m.models.get? comm with
    | none =>
      rw [closeComm_of_dead hm]
      exact .refl m
    | some model =>
      rw [closeComm_of_live h.forest hm]
      exact takeDown_stays m _ _

theorem Consistent.stays_moves (h : m.Consistent) (mv : Moves m m' made frames) : Stays m m' := by
  induction mv with
  | refl => exact .refl _
  | head first _ ih =>
    intro id slot' hs' hid
    have hnext := (h.later first).next_le
    obtain ⟨slot, hs, hp⟩ := ih (h.move first) id slot' hs' (Nat.lt_of_lt_of_le hid hnext)
    obtain ⟨old, hold, hq⟩ := h.stays_move first id slot hs hid
    exact ⟨old, hold, hq.trans hp⟩

theorem Consistent.stays_step (h : m.Consistent) (op : Operation) : Stays m (m.step op).manager := by
  rcases step_moves h op with ⟨request, opened, _, ho, he, _⟩ | ⟨cell, message, executed, _, hx, he, _⟩ | hmoves
  · obtain ⟨_, kind, rfl⟩ := openComm_ok ho
    rw [he]
    exact .refl m
  · rw [he]
    exact (execute_alike hx).stays
  · exact h.stays_moves hmoves

/-! ### Areas that list views are shown -/

theorem Consistent.revealed_move (h : m.Consistent) (hn : m.notebook.Revealed) (mv : Move m m' made frames) :
    m'.notebook.Revealed := by
  cases mv with
  | around ha => exact hn.of_areas ha.areas
  | ask hm ops ho => exact hn
  | draw f hf => exact hn
  | @place _ _ placement _ _ kind group =>
    cases placement with
    | area g => exact hn.append ⟨m.nextView⟩ g
    | host host => exact hn
  | remove id =>
    rw [removeView_eq h.forest]
    exact hn.clear m.views _
  | close comm =>
    cases hm : m.models.get? comm with
    | none =>
      rw [closeComm_of_dead hm]
      exact hn
    | some model =>
      rw [closeComm_of_live h.forest hm]
      exact hn.clear m.views _

theorem Consistent.revealed_moves (h : m.Consistent) (hn : m.notebook.Revealed) (mv : Moves m m' made frames) :
    m'.notebook.Revealed := by
  induction mv with
  | refl => exact hn
  | head first _ ih => exact ih (h.move first) (h.revealed_move hn first)

theorem Consistent.revealed_step (h : m.Consistent) (hn : m.notebook.Revealed) (op : Operation) :
    (m.step op).manager.notebook.Revealed := by
  rcases step_moves h op with ⟨request, opened, _, ho, he, _⟩ | ⟨cell, message, executed, _, hx, he, _⟩ | hmoves
  · obtain ⟨_, kind, rfl⟩ := openComm_ok ho
    rw [he]
    exact hn
  · obtain ⟨notebook, he', rfl⟩ := execute_ok hx
    rw [he]
    exact hn.execute he'
  · exact h.revealed_moves hn hmoves

/-! ### The page as a whole -/

/-- The areas list the views at home and those astray, which were at home once, and are shown if they list any. -/
structure Paged (m : Manager) (astray : ViewId → Prop) : Prop where
  shelved : m.Shelved astray
  rooted : ∀ id slot, astray id → m.views.get? id = some slot → ∃ g, slot.placement = .area g
  revealed : m.notebook.Revealed

theorem new_paged (cells throttle : Nat) : (new (.withCells cells) throttle).Paged fun _ => False where
  shelved := new_shelved cells throttle
  rooted := fun _ _ ha => ha.elim
  revealed := Notebook.revealed_withCells cells

theorem Consistent.paged_step (h : m.Consistent) (hp : m.Paged astray) (op : Operation) :
    (m.step op).manager.Paged fun id => astray id ∨ m.Strands op id where
  shelved := h.shelved_step hp.shelved op
  rooted := by
    rintro id slot' (ha | ⟨index, hhome, _⟩) hs'
    · obtain ⟨slot, hs, he⟩ := h.stays_step op id slot' hs' (hp.shelved.old id ha)
      obtain ⟨g, hg⟩ := hp.rooted id slot ha hs
      exact ⟨g, he.symm.trans hg⟩
    · -- What goes astray now was at home in its group until now.
      obtain ⟨slot, hs, hg⟩ := Arena.home_eq_some.mp hhome
      obtain ⟨slot₀, hs₀, he⟩ := h.stays_step op id slot' hs' (h.below_next id slot hs)
      obtain rfl := Option.some.inj (hs.symm.trans hs₀)
      exact ⟨.cell index, he.symm.trans hg⟩
  revealed := h.revealed_step hp.revealed op

theorem Consistent.paged_run (h : m.Consistent) (hp : m.Paged astray) (ops : List Operation) :
    (m.run ops).1.Paged fun id => astray id ∨ m.Stranded ops id := by
  induction ops generalizing m astray with
  | nil =>
    simp only [Stranded, or_false]
    exact hp
  | cons op rest ih =>
    have hnext := ih (h.step op) (h.paged_step hp op)
    simp only [or_assoc] at hnext
    exact hnext

namespace Paged

theorem listed_nodup (hp : m.Paged astray) : m.notebook.listed.Nodup := by
  refine List.nodup_iff_count_le_one.mpr fun id => ?_
  have hshelf := hp.shelved.shelves id
  by_cases hid : (∃ g, m.views.home id = some g) ∨ astray id
  · exact Nat.le_of_eq (hshelf.once hid)
  · obtain ⟨hnone, hnot⟩ := not_or.mp hid
    rw [hshelf.unlisted (Option.eq_none_iff_forall_ne_some.mpr fun g hg => hnone ⟨g, hg⟩) hnot]
    exact Nat.zero_le 1

/-- Of the live views the areas list exactly those that were placed in areas. -/
theorem mem_listed_iff (hp : m.Paged astray) {id : ViewId} {slot : Slot} (hs : m.views.get? id = some slot) :
    id ∈ m.notebook.listed ↔ ∃ g, slot.placement = .area g := by
  have hshelf := hp.shelved.shelves id
  have hplaced {g : GroupKey} (hg : m.views.home id = some g) : slot.placement = .area g := by
    obtain ⟨slot₀, hs₀, hp₀⟩ := Arena.home_eq_some.mp hg
    obtain rfl := Option.some.inj (hs.symm.trans hs₀)
    exact hp₀
  constructor
  · intro hid
    by_contra hno
    have hhome : m.views.home id = none :=
      Option.eq_none_iff_forall_ne_some.mpr fun g hg => hno ⟨g, hplaced hg⟩
    have hzero := hshelf.unlisted hhome fun ha => hno (hp.rooted id slot ha hs)
    exact List.count_eq_zero.mp hzero hid
  · rintro ⟨g, hg⟩
    have hone := hshelf.once (.inl ⟨g, Arena.home_eq_some.mpr ⟨slot, hs, hg⟩⟩)
    exact List.count_pos_iff.mp (hone ▸ Nat.one_pos)

/-- A listed view is below no other view that is listed. -/
theorem eq_of_below (hp : m.Paged astray) (h : m.Consistent) {root other : ViewId}
    (ho : other ∈ m.notebook.listed) (hb : m.views.Below root other) : root = other := by
  rcases Relation.ReflTransGen.cases_tail hb with he | ⟨host, _, hc⟩
  · exact he.symm
  · -- What a host shows was placed there and in no area.
    obtain ⟨slot, hs, hhost⟩ := h.forest.placed host other hc
    obtain ⟨g, hg⟩ := (hp.mem_listed_iff hs).mp ho
    exact absurd (hhost.symm.trans hg) nofun

/-- A live view is below a listed one: its host is, unless it has none and is listed itself. -/
theorem exists_root (hp : m.Paged astray) (h : m.Consistent) {id : ViewId} {slot : Slot}
    (hs : m.views.get? id = some slot) : ∃ root ∈ m.notebook.listed, id ∈ m.views.subtree root := by
  -- Hosts are older than what they show.
  induction hi : id.index using Nat.strongRecOn generalizing id slot with
  | _ index ih =>
    subst hi
    cases hplace : slot.placement with
    | area g => exact ⟨id, (hp.mem_listed_iff hs).mpr ⟨g, hplace⟩, h.forest.mem_subtree_self hs⟩
    | host host =>
      have hc : m.views.Hosts host id := h.hosted id slot host hs hplace
      have ⟨hostSlot, hhs, _⟩ := hc
      obtain ⟨root, hroot, hmem⟩ := ih host.index (h.forest.after host id hc) hhs rfl
      have hbelow : m.views.Below root id := (h.forest.below_of_mem_subtree hmem).tail hc
      cases hr : m.views.get? root with
      | none =>
        rw [Arena.subtree_of_dead hr] at hmem
        exact absurd hmem List.not_mem_nil
      | some rootSlot => exact ⟨root, hroot, h.forest.mem_subtree_of_below hbelow hr⟩

/-- The subtrees of what the areas list hold every live view, once, and nothing else. -/
theorem subtrees_of_listed (hp : m.Paged astray) (h : m.Consistent) :
    (m.notebook.listed.flatMap m.views.subtree).Nodup ∧
      ∀ id, id ∈ m.notebook.listed.flatMap m.views.subtree ↔ ∃ slot, m.views.get? id = some slot := by
  constructor
  · refine List.nodup_flatMap.mpr ⟨fun root _ => h.forest.subtree_nodup root,
      hp.listed_nodup.pairwise_of_forall_ne fun a ha b hb hne x hxa hxb => hne ?_⟩
    rcases h.forest.below_total (h.forest.below_of_mem_subtree hxa) (h.forest.below_of_mem_subtree hxb) with
      hab | hba
    · exact hp.eq_of_below h hb hab
    · exact (hp.eq_of_below h ha hba).symm
  · intro id
    rw [List.mem_flatMap]
    constructor
    · rintro ⟨root, _, hmem⟩
      exact h.forest.live_of_mem_subtree hmem
    · rintro ⟨slot, hs⟩
      exact hp.exists_root h hs

end Paged

end Manager

end WidgetSync
