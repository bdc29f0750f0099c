import WidgetSync.Proofs.Notebook.Areas

/-! Where a document keeps the views that are placed in it: each in the area of its group, as long as the group leads to
the area in which the view was put. -/
namespace WidgetSync.Notebook

variable {n n' : Notebook} {id : ViewId}

/-- A view is listed once if it has a home or is astray, and else not at all. At home it is in the area of its group,
and astray it is in the detached area, where its group does not lead. -/
structure Shelf (n : Notebook) (id : ViewId) (home : Option GroupKey) (isAstray : Prop) : Prop where
  once : (∃ g, home = some g) ∨ isAstray → n.listed.count id = 1
  unlisted : home = none → ¬isAstray → n.listed.count id = 0
  at_home : ∀ g, home = some g → ¬isAstray → id ∈ (n.area g).views
  away : ∀ g, home = some g → isAstray → id ∉ (n.area g).views
  detached : isAstray → id ∈ n.detached.views

/-- Every view is on its shelf. -/
def Shelves (n : Notebook) (home : ViewId → Option GroupKey) (astray : ViewId → Prop) : Prop :=
  ∀ id, n.Shelf id (home id) (astray id)

/-! ### One view -/

section Shelf

variable {home : Option GroupKey} {isAstray : Prop}

theorem Shelf.of_areas (h : n.Shelf id home isAstray) (ha : n'.areas = n.areas) :
    n'.Shelf id home isAstray := by
  have hlisted : n'.listed = n.listed := by rw [listed, listed, ha]
  have hdetached : n'.detached = n.detached := congrArg Prod.snd ha
  refine ⟨?_, ?_, fun g => ?_, fun g => ?_, ?_⟩
  · rw [hlisted]
    exact h.once
  · rw [hlisted]
    exact h.unlisted
  · rw [area_congr ha]
    exact h.at_home g
  · rw [area_congr ha]
    exact h.away g
  · rw [hdetached]
    exact h.detached

/-- What is done to an area for another view. -/
theorem Shelf.modifyArea (h : n.Shelf id home isAstray) {f : WidgetArea → WidgetArea}
    (hf : ∀ area : WidgetArea, (f area).views.count id = area.views.count id) (g : GroupKey) :
    (n.modifyArea g f).Shelf id home isAstray := by
  have hlisted : (n.modifyArea g f).listed.count id = n.listed.count id := count_listed_of_other hf g
  have hmem (g' : GroupKey) : id ∈ ((n.modifyArea g f).area g').views ↔ id ∈ (n.area g').views := by
    apply mem_area_modifyArea
    intro area
    rw [← List.count_pos_iff, ← List.count_pos_iff, hf]
  refine ⟨?_, ?_, fun g' => ?_, fun g' => ?_, ?_⟩
  · rw [hlisted]
    exact h.once
  · rw [hlisted]
    exact h.unlisted
  · rw [hmem]
    exact h.at_home g'
  · rw [hmem]
    exact h.away g'
  · intro ha
    exact (hmem .detached).mpr (h.detached ha)

/-- A view without a home gets one. -/
theorem Shelf.append (h : n.Shelf id none isAstray) (hna : ¬isAstray) (g : GroupKey) :
    (n.modifyArea g fun area => (area.append id).reveal).Shelf id (some g) isAstray := by
  let f : WidgetArea → WidgetArea := fun area => (area.append id).reveal
  have hviews (area : WidgetArea) : (f area).views = area.views ++ [id] := rfl
  refine ⟨fun _ => ?_, fun hnone => ?_, fun g' hg _ => ?_, fun _ _ ha => absurd ha hna,
    fun ha => absurd ha hna⟩
  · have hcount := n.count_listed_modifyArea g f id
    rw [h.unlisted rfl hna, hviews, List.count_append, List.count_singleton_self] at hcount
    show (n.modifyArea g f).listed.count id = 1
    omega
  · contradiction
  · obtain rfl := Option.some.inj hg
    show id ∈ ((n.modifyArea g f).area g).views
    rw [area_modifyArea, if_pos rfl, hviews]
    exact List.mem_append_right _ (List.mem_singleton_self id)

/-- A view that leaves its home is no longer listed, unless it is astray. -/
theorem Shelf.remove {g : GroupKey} (h : n.Shelf id (some g) isAstray) :
    (n.modifyArea g (·.remove id)).Shelf id none isAstray := by
  let f : WidgetArea → WidgetArea := (·.remove id)
  have hzero : (f (n.area g)).views.count id = 0 := by
    show ((n.area g).views.filter (· ≠ id)).count id = 0
    rw [List.count_eq_zero]
    simp
  have hcount := n.count_listed_modifyArea g f id
  rw [h.once (.inl ⟨g, rfl⟩), hzero] at hcount
  refine ⟨fun ha => ?_, fun _ hna => ?_, fun g' hg => ?_, fun g' hg => ?_, fun ha => ?_⟩
  · -- It is astray, and so the area of its group does not list it anyway.
    have hastray : isAstray := ha.resolve_left fun ⟨_, hg⟩ => Option.some_ne_none _ hg.symm
    rw [List.count_eq_zero.mpr (h.away g rfl hastray)] at hcount
    exact hcount
  · have hone := List.count_pos_iff.mpr (h.at_home g rfl hna)
    show (n.modifyArea g f).listed.count id = 0
    omega
  · contradiction
  · contradiction
  · -- The detached area is not the one of its group, or the group would lead to it.
    have hne : n.cellOf? g ≠ n.cellOf? .detached := by
      intro hsame
      apply h.away g rfl ha
      rw [area_of_cellOf?_eq hsame]
      exact h.detached ha
    show id ∈ ((n.modifyArea g f).area .detached).views
    rw [area_modifyArea, if_neg hne]
    exact h.detached ha

/-- When cells are added, a view goes astray that is at home in a group that gets a cell. -/
theorem Shelf.execute (h : n.Shelf id home isAstray) {index : Nat} {message : String}
    (he : n.execute index message = .ok n') :
    n'.Shelf id home (isAstray ∨ ∃ i, home = some (.cell i) ∧ n.count ≤ i ∧ i < n'.count) := by
  have hle : n.count ≤ n'.count := by
    rw [count_execute he]
    exact Nat.le_max_left _ _
  have hlisted := listed_execute he
  have hdetached : n'.detached = n.detached := congrArg Prod.snd (areas_execute he)
  have hnew {i : Nat} (hi : n.count ≤ i) (hi' : i < n'.count) : n'.area (.cell i) = .empty := by
    rw [area_execute he, if_neg ((cellOf?_ne_iff hle _).mpr ⟨i, rfl, hi, hi'⟩)]
  refine ⟨fun ha => ?_, fun hnone hna => ?_, fun g hg hna => ?_, fun g hg ha => ?_, fun ha => ?_⟩
  · rw [hlisted]
    rcases ha with hhome | hastray | ⟨i, hi, _⟩
    · exact h.once (.inl hhome)
    · exact h.once (.inr hastray)
    · exact h.once (.inl ⟨_, hi⟩)
  · rw [hlisted]
    exact h.unlisted hnone fun ha => hna (.inl ha)
  · have hsame : n.cellOf? g = n'.cellOf? g := by
      by_contra hne
      obtain ⟨i, rfl, hi⟩ := (cellOf?_ne_iff hle g).mp hne
      exact hna (.inr ⟨i, hg, hi⟩)
    rw [area_execute he, if_pos hsame]
    exact h.at_home g hg fun ha => hna (.inl ha)
  · rcases ha with hastray | ⟨i, hi, hlt, hlt'⟩
    · -- Its group may get a cell now, but the view is not in the area of that one either.
      rw [area_execute he]
      split
      · exact h.away g hg hastray
      · exact List.not_mem_nil
    · obtain rfl := Option.some.inj (hg.symm.trans hi)
      rw [hnew hlt hlt']
      exact List.not_mem_nil
  · rw [hdetached]
    by_cases hastray : isAstray
    · exact h.detached hastray
    · -- Until now its group had no cell, and so it was in the detached area.
      obtain ⟨i, hi, hlt, _⟩ := ha.resolve_left hastray
      have hhome := h.at_home _ hi hastray
      have hcell : n.cellOf? (.cell i) = n.cellOf? .detached := cellOf?_of_le hlt
      rwa [area_of_cellOf?_eq hcell] at hhome

end Shelf

/-! ### All views -/

variable {home : ViewId → Option GroupKey} {astray : ViewId → Prop}

theorem Shelves.of_areas (h : n.Shelves home astray) (ha : n'.areas = n.areas) :
    n'.Shelves home astray :=
  fun id => (h id).of_areas ha

theorem Shelves.append (h : n.Shelves home astray) (hnone : home id = none) (hna : ¬astray id)
    (g : GroupKey) :
    (n.modifyArea g fun area => (area.append id).reveal).Shelves
      (fun x => if x = id then some g else home x) astray := by
  intro x
  show Shelf _ x (if x = id then some g else home x) (astray x)
  by_cases hx : x = id
  · rw [if_pos hx, hx]
    have hself := h id
    rw [hnone] at hself
    exact hself.append hna g
  · rw [if_neg hx]
    apply (h x).modifyArea
    intro area
    show (area.views ++ [id]).count x = _
    simp [List.count_append, List.count_eq_zero_of_not_mem, hx]

theorem Shelves.remove (h : n.Shelves home astray) {g : GroupKey} (hid : home id = some g) :
    (n.modifyArea g (·.remove id)).Shelves (fun x => if x = id then none else home x) astray := by
  intro x
  show Shelf _ x (if x = id then none else home x) (astray x)
  by_cases hx : x = id
  · rw [if_pos hx, hx]
    have hself := h id
    rw [hid] at hself
    exact hself.remove
  · rw [if_neg hx]
    apply (h x).modifyArea
    intro area
    exact List.count_filter (decide_eq_true hx)

theorem Shelves.execute (h : n.Shelves home astray) {index : Nat} {message : String}
    (he : n.execute index message = .ok n') :
    n'.Shelves home fun id => astray id ∨
      ∃ i, home id = some (.cell i) ∧ n.count ≤ i ∧ i < n'.count :=
  fun id => (h id).execute he

end WidgetSync.Notebook
