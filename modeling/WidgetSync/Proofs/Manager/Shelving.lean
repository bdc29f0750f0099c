import WidgetSync.Proofs.Manager.Run
import WidgetSync.Proofs.Notebook.Shelves

/-! Which views the areas of the document list: the live views that were placed there, and those that an execution has
cut off from their area, dead or alive. -/
namespace WidgetSync

/-- The group in whose area a live view was placed. -/
def Arena.home (views : Arena) (id : ViewId) : Option GroupKey :=
  match views.placement id with
  | some (.area group) => some group
  | some (.host _) => none
  | none => none

namespace Arena

variable {views : Arena} {id : ViewId}

theorem home_eq_some {group : GroupKey} :
    views.home id = some group ↔ ∃ slot, views.get? id = some slot ∧ slot.placement = .area group := by
  rw [home, placement]
  cases views.get? id with
  | none => simp
  | some slot => cases hp : slot.placement <;> simp [hp]

theorem home_of_dead (h : views.get? id = none) : views.home id = none := by
  rw [home, placement, h]
  rfl

theorem home_congr {other : Arena} (h : other.placement id = views.placement id) :
    other.home id = views.home id := by
  rw [home, home, h]

theorem home_without (gone : List ViewId) :
    (views.without gone).home id = if id ∈ gone then none else views.home id := by
  split
  · next hg =>
    apply home_of_dead
    rw [get?_without, if_pos hg]
  · next hg => exact home_congr (placement_without hg)

end Arena

/-- The views of a walk leave their homes. -/
theorem Notebook.Shelves.clear {n : Notebook} {home : ViewId → Option GroupKey} {astray : ViewId → Prop}
    {views : Arena} {walk : List ViewId} (hn : walk.Nodup) (h : n.Shelves home astray)
    (hhome : ∀ x ∈ walk, home x = views.home x) :
    (views.clear n walk).Shelves (fun x => if x ∈ walk then none else home x) astray := by
  induction walk generalizing n home with
  | nil =>
    simp only [List.not_mem_nil, if_false]
    exact h
  | cons id rest ih =>
    obtain ⟨hid, hrest⟩ := List.nodup_cons.mp hn
    have hself := hhome id List.mem_cons_self
    let left : ViewId → Option GroupKey := fun x => if x = id then none else home x
    have hfirst : (n.without id (views.placement id)).Shelves left astray := by
      rw [Arena.home] at hself
      have hstays (hnone : home id = none) : left = home := by
        funext x
        by_cases hx : x = id
        · simp [left, hx, hnone]
        · simp only [left, if_neg hx]
      cases hp : views.placement id with
      | none =>
        rw [hp] at hself
        rw [hstays hself]
        exact h
      | some place =>
        rw [hp] at hself
        cases place with
        | area group => exact h.remove hself
        | host host =>
          rw [hstays hself]
          exact h
    have hothers : ∀ x ∈ rest, left x = views.home x := by
      intro x hx
      have hne : x ≠ id := fun he => hid (he ▸ hx)
      simp only [left, if_neg hne]
      exact hhome x (List.mem_cons_of_mem _ hx)
    have hall : (fun x => if x ∈ id :: rest then none else home x) =
        fun x => if x ∈ rest then none else left x := by
      funext x
      by_cases hx : x = id <;> by_cases hr : x ∈ rest <;> simp [left, hx, hr]
    rw [hall]
    exact ih hrest hfirst hothers

namespace Manager

variable {m m' : Manager} {made : List (CommId × Attributes)} {frames : List Frame}
  {astray : ViewId → Prop}

/-- The areas of the notebook list the views at home and those astray, which are old. -/
structure Shelved (m : Manager) (astray : ViewId → Prop) : Prop where
  shelves : m.notebook.Shelves m.views.home astray
  old : ∀ id, astray id → id.index < m.nextView

/-- What leaves views where they are placed, and the areas as they are, leaves them shelved. -/
theorem Shelved.of_alike (h : m.Shelved astray) (ha : Alike m m')
    (hn : m'.notebook.areas = m.notebook.areas) : m'.Shelved astray where
  shelves := by
    have hhome : m'.views.home = m.views.home := by
      funext id
      apply Arena.home_congr
      have hview := congrArg (Option.map fun outline => outline.2.2.2) (ha.views id)
      rw [Option.map_map, Option.map_map] at hview
      exact hview
    rw [hhome]
    exact h.shelves.of_areas hn
  old := by
    rw [ha.nextView]
    exact h.old

theorem Shelved.takeDown (h : m.Shelved astray) {walk : List ViewId} (hn : walk.Nodup)
    (models : Models) : (Manager.takeDown { m with models } walk).1.Shelved astray where
  shelves := by
    have hhome : (m.views.without walk).home =
        fun x => if x ∈ walk then none else m.views.home x := by
      funext x
      exact Arena.home_without walk
    show (m.views.clear m.notebook walk).Shelves (m.views.without walk).home astray
    rw [hhome]
    exact h.shelves.clear hn fun _ _ => rfl
  old := h.old

theorem Consistent.shelved_place (h : m.Consistent) (hs : m.Shelved astray) {comm : CommId}
    {placement : Placement}
    (hp : ∀ host, placement = .host host → ∃ slot, m.views.get? host = some slot)
    (kind : ViewKind) (group : GroupKey) : (m.place kind comm group placement).Shelved astray := by
  have hn := h.next_not_host hp
  have hnone : m.views.home ⟨m.nextView⟩ = none := Arena.home_of_dead h.next_dead
  have hnew : ¬astray ⟨m.nextView⟩ := fun ha => Nat.lt_irrefl _ (hs.old _ ha)
  -- The new view is placed, and every other view stays where it is.
  have hplacement (x : ViewId) : (m.place kind comm group placement).views.placement x =
      if x = ⟨m.nextView⟩ then some placement else m.views.placement x := by
    rw [Arena.placement, get?_place kind comm group hn]
    by_cases hx : x = ⟨m.nextView⟩
    · rw [if_pos hx, if_pos hx.symm]
      rfl
    · rw [if_neg hx, if_neg (Ne.symm hx), Option.map_map, Arena.placement]
      congr 1
      funext slot
      exact (adopt_keeps slot x placement ⟨m.nextView⟩).2.2
  refine ⟨?_, fun id hid => ?_⟩
  · cases placement with
    | area g =>
      have hhome : (m.place kind comm group (.area g)).views.home =
          fun x => if x = ⟨m.nextView⟩ then some g else m.views.home x := by
        funext x
        rw [Arena.home, hplacement, Arena.home]
        by_cases hx : x = ⟨m.nextView⟩
        · simp only [if_pos hx]
        · simp only [if_neg hx]
      rw [hhome]
      exact hs.shelves.append hnone hnew g
    | host host =>
      have hhome : (m.place kind comm group (.host host)).views.home = m.views.home := by
        funext x
        rw [Arena.home, hplacement]
        by_cases hx : x = ⟨m.nextView⟩
        · rw [hx, hnone, if_pos rfl]
        · rw [if_neg hx, Arena.home]
      rw [hhome]
      exact hs.shelves
  · rw [place_nextView]
    exact Nat.lt_succ_of_lt (hs.old id hid)

theorem Consistent.shelved_move (h : m.Consistent) (hs : m.Shelved astray)
    (mv : Move m m' made frames) : m'.Shelved astray := by
  cases mv with
  | around ha => exact hs.of_alike ha.alike ha.areas
  | ask hm ops ho => exact hs.of_alike (alike_setModel hm (run_outline ho)) rfl
  | draw f hf => exact hs.of_alike (alike_draw hf) rfl
  | place hm hp kind group => exact h.shelved_place hs hp kind group
  | remove id =>
    rw [removeView_eq h.forest]
    exact hs.takeDown (h.forest.subtree_nodup id) m.models
  | close comm =>
    cases hm : m.models.get? comm with
    | none =>
      rw [closeComm_of_dead hm]
      exact hs
    | some model =>
      rw [closeComm_of_live h.forest hm]
      exact hs.takeDown (h.forest.sweep_nodup _) _

theorem Consistent.shelved_moves (h : m.Consistent) (hs : m.Shelved astray)
    (mv : Moves m m' made frames) : m'.Shelved astray := by
  induction mv with
  | refl => exact hs
  | head first _ ih => exact ih (h.move first) (h.shelved_move hs first)

/-! ### How many cells there are -/

theorem count_clear (views : Arena) (n : Notebook) (walk : List ViewId) :
    (views.clear n walk).count = n.count := by
  induction walk generalizing n with
  | nil => rfl
  | cons id rest ih =>
    have hfirst : (n.without id (views.placement id)).count = n.count := by
      rcases views.placement id with _ | g | host
      · rfl
      · exact n.count_modifyArea g _
      · rfl
    exact (ih (n.without id (views.placement id))).trans hfirst

theorem Consistent.count_move (h : m.Consistent) (mv : Move m m' made frames) :
    m'.notebook.count = m.notebook.count := by
  cases mv with
  | around ha => rw [Notebook.count_eq, Notebook.count_eq, ha.areas]
  | ask hm ops ho => rfl
  | draw f hf => rfl
  | @place _ _ placement _ _ kind group =>
    cases placement with
    | area g => exact m.notebook.count_modifyArea g _
    | host host => rfl
  | remove id =>
    rw [removeView_eq h.forest]
    exact count_clear m.views m.notebook _
  | close comm =>
    cases hm : m.models.get? comm with
    | none => rw [closeComm_of_dead hm]
    | some model =>
      rw [closeComm_of_live h.forest hm]
      exact count_clear m.views m.notebook _

theorem Consistent.count_moves (h : m.Consistent) (mv : Moves m m' made frames) :
    m'.notebook.count = m.notebook.count := by
  induction mv with
  | refl => rfl
  | head first _ ih => exact (ih (h.move first)).trans (h.count_move first)

/-! ### Operations -/

/-- An operation adds the cell of a view that is at home in a group, whose area was the detached one until then. -/
def Strands (m : Manager) (op : Operation) (id : ViewId) : Prop :=
  ∃ index, m.views.home id = some (.cell index) ∧ m.notebook.count ≤ index ∧
    index < (m.step op).manager.notebook.count

/-- The views that operations strand. -/
def Stranded (m : Manager) : List Operation → ViewId → Prop
  | [], _ => False
  | op :: rest, id => m.Strands op id ∨ (m.step op).manager.Stranded rest id

theorem Consistent.shelved_step (h : m.Consistent) (hs : m.Shelved astray) (op : Operation) :
    (m.step op).manager.Shelved fun id => astray id ∨ m.Strands op id := by
  -- Without a new cell no view goes astray.
  have hkept (hcount : (m.step op).manager.notebook.count = m.notebook.count)
      (hshelved : (m.step op).manager.Shelved astray) :
      (m.step op).manager.Shelved fun id => astray id ∨ m.Strands op id := by
    have hsame : (fun id => astray id ∨ m.Strands op id) = astray := by
      funext id
      apply propext
      constructor
      · rintro (ha | ⟨index, _, hle, hlt⟩)
        · exact ha
        · omega
      · exact .inl
    rw [hsame]
    exact hshelved
  rcases step_moves h op with ⟨request, opened, _, ho, he, _⟩ |
    ⟨cell, message, executed, _, hx, he, _⟩ | hmoves
  · obtain ⟨_, kind, rfl⟩ := openComm_ok ho
    apply hkept <;> rw [he]
    · rfl
    · exact ⟨hs.shelves, hs.old⟩
  · obtain ⟨notebook, hn, rfl⟩ := execute_ok hx
    have hcut := hs.shelves.execute hn
    refine ⟨?_, ?_⟩
    · simp only [Strands, he]
      exact hcut
    · intro id hid
      rw [he]
      rcases hid with ha | ⟨index, hhome, _⟩
      · exact hs.old id ha
      · obtain ⟨slot, hslot, _⟩ := Arena.home_eq_some.mp hhome
        exact h.below_next id slot hslot
  · exact hkept (h.count_moves hmoves) (h.shelved_moves hs hmoves)

theorem Consistent.shelved_run (h : m.Consistent) (hs : m.Shelved astray) (ops : List Operation) :
    (m.run ops).1.Shelved fun id => astray id ∨ m.Stranded ops id := by
  induction ops generalizing m astray with
  | nil =>
    simp only [Stranded, or_false]
    exact hs
  | cons op rest ih =>
    have hnext := ih (h.step op) (h.shelved_step hs op)
    simp only [or_assoc] at hnext
    exact hnext

theorem new_shelved (cells throttle : Nat) :
    (new (.withCells cells) throttle).Shelved fun _ => False where
  shelves := by
    have hempty : (Notebook.withCells cells).listed = [] := by
      simp only [Notebook.listed, Notebook.areas, Notebook.withCells, List.map_replicate,
        List.append_eq_nil_iff, List.flatMap_eq_nil_iff]
      refine ⟨fun area ha => ?_, rfl⟩
      rw [List.eq_of_mem_replicate ha]
      rfl
    -- Nobody is at home yet, and nobody is listed.
    refine fun id => ⟨fun hid => ?_, fun _ _ => ?_, fun g hid _ => ?_, fun _ _ ha => ha.elim, False.elim⟩
    · rcases hid with ⟨g, hid⟩ | ha
      · exact absurd hid (Option.some_ne_none g).symm
      · exact ha.elim
    · show (Notebook.withCells cells).listed.count id = 0
      rw [hempty]
      rfl
    · exact absurd hid (Option.some_ne_none g).symm
  old := fun _ ha => ha.elim

/-- In every state that operations reach from a new manager, whatever cells are named: no view is listed twice, in one
area or in two. What is listed are the live views that were placed in areas, each in the area of its group, and the
views that were stranded when a cell was added, which stay in the detached area even when they are gone. -/
theorem areas_list_standalone (cells throttle : Nat) (ops : List Operation) :
    let start := new (.withCells cells) throttle
    let m := (start.run ops).1
    m.notebook.listed.Nodup ∧
    (∀ id, id ∈ m.notebook.listed ↔
      (∃ slot group, m.views.get? id = some slot ∧ slot.placement = .area group) ∨
        start.Stranded ops id) ∧
    (∀ id slot group, m.views.get? id = some slot → slot.placement = .area group →
      ¬start.Stranded ops id → id ∈ (m.notebook.area group).views) ∧
    ∀ id, start.Stranded ops id → id ∈ m.notebook.detached.views := by
  intro start m
  have hstart : start.Consistent := new_consistent (.withCells cells) throttle
  have hshelves := (hstart.shelved_run (new_shelved cells throttle) ops).shelves
  simp only [false_or] at hshelves
  have hlives (id : ViewId) : (∃ g, m.views.home id = some g) ↔
      ∃ slot group, m.views.get? id = some slot ∧ slot.placement = .area group := by
    simp only [Arena.home_eq_some]
    exact exists_comm
  have hlisted (id : ViewId) : id ∈ m.notebook.listed ↔
      (∃ g, m.views.home id = some g) ∨ start.Stranded ops id := by
    constructor
    · intro hid
      by_contra hno
      obtain ⟨hnone, hnot⟩ := not_or.mp hno
      have hhome : m.views.home id = none :=
        Option.eq_none_iff_forall_ne_some.mpr fun g hg => hnone ⟨g, hg⟩
      exact List.count_eq_zero.mp ((hshelves id).unlisted hhome hnot) hid
    · intro hid
      apply List.count_pos_iff.mp
      rw [(hshelves id).once hid]
      exact Nat.one_pos
  refine ⟨?_, fun id => ?_, fun id slot group hs hp hnot => ?_, fun id => (hshelves id).detached⟩
  · apply List.nodup_iff_count_le_one.mpr
    intro id
    by_cases hid : id ∈ m.notebook.listed
    · exact Nat.le_of_eq ((hshelves id).once ((hlisted id).mp hid))
    · rw [List.count_eq_zero_of_not_mem hid]
      exact Nat.zero_le 1
  · rw [hlisted, hlives]
  · exact (hshelves id).at_home group (Arena.home_eq_some.mpr ⟨slot, hs, hp⟩) hnot

/-- A view is displayed for a cell that is not there yet, the cell is executed, and the view is taken down: the
detached area lists the view still, though no view is live. -/
theorem stranded_view_stays :
    let ops : List Operation := [.registerDefaults, .openComm ⟨⟨"c"⟩, "BoolWidgetModel"⟩,
      .display ⟨"c"⟩ "CheckboxView" none (.cell 5), .execute 5 "m", .removeView ⟨1⟩]
    let m := ((new (.withCells 1) 1).run ops).1
    m.notebook.listed = [⟨1⟩] ∧ m.notebook.detached.views = [⟨1⟩] ∧ m.views.get? ⟨1⟩ = none := by
  decide +kernel

end Manager

end WidgetSync
