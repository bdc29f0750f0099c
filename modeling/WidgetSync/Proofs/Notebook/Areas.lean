import WidgetSync.Notebook
import Mathlib.Data.List.Basic

/-! Which views the areas of a document list and show. The area of a group is the one of its cell, or the detached one
while there is no such cell. So a view that is put into the detached area for want of a cell is looked for in vain once
the cell is there, whose own area is empty. -/
namespace WidgetSync.Notebook

variable {n n' : Notebook}

/-- The areas of the cells, and the detached one. -/
def areas (n : Notebook) : List WidgetArea × WidgetArea := (n.cells.map (·.area), n.detached)

/-- The views in the areas, each as often as areas list it. -/
def listed (n : Notebook) : List ViewId := n.areas.1.flatMap (·.views) ++ n.areas.2.views

/-- The cell of a group, if the document has it. -/
def cellOf? (n : Notebook) : GroupKey → Option Nat
  | .cell index => if index < n.count then some index else none
  | .detached => none

theorem count_eq (n : Notebook) : n.count = n.areas.1.length := by
  simp only [count, areas, List.length_map]

theorem cellOf?_of_lt {index : Nat} (h : index < n.count) : n.cellOf? (.cell index) = some index :=
  if_pos h

theorem cellOf?_of_le {index : Nat} (h : n.count ≤ index) : n.cellOf? (.cell index) = none :=
  if_neg (Nat.not_lt.mpr h)

theorem area_eq (n : Notebook) (g : GroupKey) :
    n.area g = match n.cellOf? g with
      | some index => n.areas.1[index]?.getD n.areas.2
      | none => n.areas.2 := by
  cases g with
  | detached => rfl
  | cell index =>
    have harea : n.area (.cell index) = n.areas.1[index]?.getD n.areas.2 := by
      simp only [area, areas, List.getElem?_map]
    rcases Nat.lt_or_ge index n.count with hi | hi
    · simp only [cellOf?_of_lt hi, harea]
    · have hnone : n.areas.1[index]? = none := by
        apply List.getElem?_eq_none
        rwa [← count_eq]
      simp only [cellOf?_of_le hi, harea, hnone, Option.getD_none]

theorem cellOf?_congr (h : n'.count = n.count) (g : GroupKey) : n'.cellOf? g = n.cellOf? g := by
  cases g with
  | detached => rfl
  | cell index => rw [cellOf?, cellOf?, h]

/-- Which area a group has is all in the areas. -/
theorem area_congr (h : n'.areas = n.areas) (g : GroupKey) : n'.area g = n.area g := by
  have hcount : n'.count = n.count := by rw [count_eq, count_eq, h]
  rw [area_eq, area_eq, cellOf?_congr hcount, h]

theorem cellOf?_lt {g : GroupKey} {index : Nat} (h : n.cellOf? g = some index) :
    index < n.areas.1.length := by
  cases g with
  | detached => contradiction
  | cell i =>
    rw [cellOf?] at h
    split at h
    · next hi =>
      obtain rfl := Option.some.inj h
      rwa [count_eq] at hi
    · contradiction

/-- What is done to one cell is done to its area. -/
theorem map_area_modify (cells : List Cell) (index : Nat) {f : Cell → Cell}
    {g : WidgetArea → WidgetArea} (h : ∀ c, (f c).area = g c.area) :
    (cells.modify index f).map (·.area) = (cells.map (·.area)).modify index g := by
  apply List.ext_getElem?
  intro i
  rw [List.getElem?_map, List.getElem?_modify, List.getElem?_modify, List.getElem?_map]
  cases cells[i]? with
  | none => rfl
  | some c =>
    by_cases hi : index = i
    · simp [hi, h c]
    · simp [hi]

theorem areas_appendOutput (n : Notebook) (index : Nat) (text : String) :
    (n.appendOutput index text).areas = n.areas := by
  have hsame : ∀ c : Cell, (c.appendOutput text).area = id c.area := fun _ => rfl
  simp only [areas, appendOutput, map_area_modify n.cells index hsame, List.modify_id]

/-! ### One area -/

theorem areas_modifyArea (n : Notebook) (g : GroupKey) (f : WidgetArea → WidgetArea) :
    (n.modifyArea g f).areas =
      match n.cellOf? g with
      | some index => (n.areas.1.modify index f, n.areas.2)
      | none => (n.areas.1, f n.areas.2) := by
  cases g with
  | detached => rfl
  | cell index =>
    have hsame : ∀ c : Cell, ({ c with area := f c.area } : Cell).area = f c.area := fun _ => rfl
    rcases Nat.lt_or_ge index n.count with hi | hi
    · simp only [cellOf?_of_lt hi, modifyArea, if_pos hi, areas, map_area_modify n.cells index hsame]
    · simp only [cellOf?_of_le hi, modifyArea, if_neg (Nat.not_lt.mpr hi), areas]

theorem count_modifyArea (n : Notebook) (g : GroupKey) (f : WidgetArea → WidgetArea) :
    (n.modifyArea g f).count = n.count := by
  rw [count_eq, areas_modifyArea, count_eq]
  split
  · rw [List.length_modify]
  · rfl

/-- The groups that share the area of a group see what is done to it, and no others. -/
theorem area_modifyArea (n : Notebook) (g g' : GroupKey) (f : WidgetArea → WidgetArea) :
    (n.modifyArea g f).area g' =
      if n.cellOf? g = n.cellOf? g' then f (n.area g) else n.area g' := by
  have hcell := cellOf?_congr (n.count_modifyArea g f) g'
  rw [area_eq, hcell, areas_modifyArea, area_eq n g, area_eq n g']
  cases hg : n.cellOf? g with
  | none =>
    cases hg' : n.cellOf? g' with
    | none => simp
    | some index' =>
      have hlt := cellOf?_lt hg'
      simp [List.getElem?_eq_getElem hlt]
  | some index =>
    cases hg' : n.cellOf? g' with
    | none => simp
    | some index' =>
      have hlt := cellOf?_lt hg'
      by_cases he : index = index'
      · simp [he, List.getElem?_eq_getElem hlt]
      · simp [he]

/-- Of the cells only the one of the group changes, and of that only the area. -/
theorem getElem?_cells_modifyArea (n : Notebook) (g : GroupKey) (f : WidgetArea → WidgetArea) (index : Nat) :
    (n.modifyArea g f).cells[index]? =
      (n.cells[index]?).map fun c => if g = .cell index then { c with area := f c.area } else c := by
  cases g with
  | detached =>
    have hne : GroupKey.detached ≠ .cell index := nofun
    simp only [modifyArea, if_neg hne, Option.map_id_fun', id_eq]
  | cell i =>
    rcases Nat.lt_or_ge i n.count with hi | hi
    · simp only [modifyArea, if_pos hi, List.getElem?_modify, GroupKey.cell.injEq]
      rfl
    · simp only [modifyArea, if_neg (Nat.not_lt.mpr hi), GroupKey.cell.injEq]
      by_cases he : i = index
      · have hnone : n.cells[index]? = none := List.getElem?_eq_none (he ▸ hi)
        rw [hnone, Option.map_none]
      · simp only [if_neg he, Option.map_id_fun', id_eq]

theorem detached_modifyArea (n : Notebook) (g : GroupKey) (f : WidgetArea → WidgetArea) :
    (n.modifyArea g f).detached = if n.cellOf? g = none then f n.detached else n.detached := by
  have hareas := congrArg Prod.snd (n.areas_modifyArea g f)
  cases hg : n.cellOf? g with
  | none =>
    rw [hg] at hareas
    rw [if_pos rfl]
    exact hareas
  | some index =>
    rw [hg] at hareas
    rw [if_neg (Option.some_ne_none index)]
    exact hareas

theorem selected_modifyArea (n : Notebook) (g : GroupKey) (f : WidgetArea → WidgetArea) :
    (n.modifyArea g f).selected = n.selected := by
  cases g with
  | detached => rfl
  | cell i =>
    rw [modifyArea]
    split <;> rfl

/-- Of several lists one is replaced. -/
theorem count_flatMap_modify {α β : Type} [DecidableEq β] (v : α → List β) (f : α → α) (x : β)
    {xs : List α} {i : Nat} (hi : i < xs.length) :
    ((xs.modify i f).flatMap v).count x + (v xs[i]).count x =
      (xs.flatMap v).count x + (v (f xs[i])).count x := by
  induction xs generalizing i with
  | nil => contradiction
  | cons a rest ih =>
    cases i with
    | zero =>
      simp only [List.modify_zero_cons, List.flatMap_cons, List.count_append, List.getElem_cons_zero]
      omega
    | succ i =>
      have hrest := ih (Nat.lt_of_succ_lt_succ hi)
      simp only [List.modify_succ_cons, List.flatMap_cons, List.count_append, List.getElem_cons_succ]
      omega

/-- How often a view is listed changes by how often the one area lists it. -/
theorem count_listed_modifyArea (n : Notebook) (g : GroupKey) (f : WidgetArea → WidgetArea)
    (x : ViewId) :
    (n.modifyArea g f).listed.count x + (n.area g).views.count x =
      n.listed.count x + (f (n.area g)).views.count x := by
  rw [listed, listed, areas_modifyArea, area_eq]
  cases hg : n.cellOf? g with
  | none =>
    simp only [List.count_append]
    omega
  | some index =>
    have hlt := cellOf?_lt hg
    have hone := count_flatMap_modify (·.views) f x hlt
    simp only [List.count_append, List.getElem?_eq_getElem hlt, Option.getD_some]
    omega

/-- Groups of one cell, or of none, have one area. -/
theorem area_of_cellOf?_eq {g g' : GroupKey} (h : n.cellOf? g = n.cellOf? g') : n.area g = n.area g' := by
  rw [area_eq, area_eq, h]

/-- What is done to an area for one view leaves every other view where it is. -/
theorem mem_area_modifyArea {x : ViewId} {f : WidgetArea → WidgetArea}
    (hf : ∀ area : WidgetArea, x ∈ (f area).views ↔ x ∈ area.views) (g g' : GroupKey) :
    x ∈ ((n.modifyArea g f).area g').views ↔ x ∈ (n.area g').views := by
  rw [area_modifyArea]
  split
  · next he => rw [hf, area_of_cellOf?_eq he]
  · rfl

theorem count_listed_of_other {x : ViewId} {f : WidgetArea → WidgetArea}
    (hf : ∀ area : WidgetArea, (f area).views.count x = area.views.count x) (g : GroupKey) :
    (n.modifyArea g f).listed.count x = n.listed.count x := by
  have hcount := n.count_listed_modifyArea g f x
  rw [hf] at hcount
  omega

/-! ### Execution -/

/-- To execute a cell adds empty areas at most. -/
theorem areas_execute {index : Nat} {message : String} (h : n.execute index message = .ok n') :
    n'.areas = (n.areas.1 ++ List.replicate (index + 1 - n.count) .empty, n.areas.2) := by
  rw [execute] at h
  split at h
  · contradiction
  · obtain rfl := Except.ok.inj h
    have hsame : ∀ c : Cell, ({ c with lastMessage := some message } : Cell).area = id c.area :=
      fun _ => rfl
    simp only [areas, map_area_modify _ index hsame, List.modify_id, padded, List.map_append,
      List.map_replicate]
    rfl

theorem count_execute {index : Nat} {message : String} (h : n.execute index message = .ok n') :
    n'.count = max n.count (index + 1) := by
  rw [count_eq, areas_execute h, List.length_append, List.length_replicate, ← count_eq]
  omega

theorem listed_execute {index : Nat} {message : String} (h : n.execute index message = .ok n') :
    n'.listed = n.listed := by
  have hempty : (List.replicate (index + 1 - n.count) WidgetArea.empty).flatMap (·.views) = [] := by
    rw [List.flatMap_eq_nil_iff]
    intro area ha
    rw [List.eq_of_mem_replicate ha]
    rfl
  rw [listed, listed, areas_execute h, List.flatMap_append, hempty, List.append_nil]

/-- A group whose cell is added has an empty area from then on, and every other group the area that it had. -/
theorem area_execute {index : Nat} {message : String} (h : n.execute index message = .ok n')
    (g : GroupKey) :
    n'.area g = if n.cellOf? g = n'.cellOf? g then n.area g else .empty := by
  have hcount := count_execute h
  rw [area_eq, area_eq n g, areas_execute h]
  cases g with
  | detached => rfl
  | cell i =>
    -- The cell was there before, or is one of the new ones, or is not there even now.
    rcases Nat.lt_or_ge i n.count with hi | hi
    · have hi' : i < n'.count := by omega
      have hlt : i < n.areas.1.length := by rwa [← count_eq]
      simp only [cellOf?_of_lt hi, cellOf?_of_lt hi', List.getElem?_append_left hlt, if_true]
    · rcases Nat.lt_or_ge i n'.count with hi' | hi'
      · have hle : n.areas.1.length ≤ i := by rwa [← count_eq]
        have hnew : i - n.areas.1.length < index + 1 - n.count := by
          rw [← count_eq]
          omega
        simp [cellOf?_of_le hi, cellOf?_of_lt hi', List.getElem?_append_right hle, hnew]
      · simp only [cellOf?_of_le hi, cellOf?_of_le hi', if_true]

/-- A group changes its area when its cell is added. -/
theorem cellOf?_ne_iff (h : n.count ≤ n'.count) (g : GroupKey) :
    n.cellOf? g ≠ n'.cellOf? g ↔ ∃ index, g = .cell index ∧ n.count ≤ index ∧ index < n'.count := by
  constructor
  · intro hne
    cases g with
    | detached => exact absurd rfl hne
    | cell i =>
      rcases Nat.lt_or_ge i n.count with hi | hi
      · rw [cellOf?_of_lt hi, cellOf?_of_lt (Nat.lt_of_lt_of_le hi h)] at hne
        exact absurd rfl hne
      · rcases Nat.lt_or_ge i n'.count with hi' | hi'
        · exact ⟨i, rfl, hi, hi'⟩
        · rw [cellOf?_of_le hi, cellOf?_of_le hi'] at hne
          exact absurd rfl hne
  · rintro ⟨i, rfl, hi, hi'⟩
    rw [cellOf?_of_le hi, cellOf?_of_lt hi']
    exact nofun

/-! ### What is shown -/

/-- The views in the areas that are shown, in the order of the page. -/
def shown (n : Notebook) : List ViewId :=
  (n.areas.1 ++ [n.areas.2]).flatMap fun area => if area.isShown then area.views else []

/-- An area that lists views is shown. -/
def Revealed (n : Notebook) : Prop :=
  ∀ area ∈ n.areas.1 ++ [n.areas.2], area.views ≠ [] → area.isShown = true

theorem revealed_withCells (count : Nat) : (withCells count).Revealed := by
  intro area ha hne
  have hempty : area = .empty := by
    simp only [areas, withCells, List.map_replicate, List.mem_append, List.mem_singleton] at ha
    exact ha.elim List.eq_of_mem_replicate id
  exact absurd (congrArg WidgetArea.views hempty) hne

theorem Revealed.of_areas (h : n.Revealed) (ha : n'.areas = n.areas) : n'.Revealed := by
  rw [Revealed, ha]
  exact h

/-- What is in a list of which one item is replaced. -/
theorem mem_modify {α : Type} {f : α → α} {x : α} {xs : List α} {i : Nat} (h : x ∈ xs.modify i f) :
    ∃ old ∈ xs, x = old ∨ x = f old := by
  obtain ⟨j, hj⟩ := List.mem_iff_getElem?.mp h
  rw [List.getElem?_modify] at hj
  obtain ⟨old, hold, rfl⟩ := Option.map_eq_some_iff.mp hj
  refine ⟨old, List.mem_of_getElem? hold, ?_⟩
  split
  · exact .inr rfl
  · exact .inl rfl

theorem Revealed.modifyArea (h : n.Revealed) {f : WidgetArea → WidgetArea}
    (hf : ∀ area : WidgetArea, (area.views ≠ [] → area.isShown = true) → (f area).views ≠ [] →
      (f area).isShown = true) (g : GroupKey) : (n.modifyArea g f).Revealed := by
  have hafter {old area : WidgetArea} (hold : old ∈ n.areas.1 ++ [n.areas.2])
      (ha : area = old ∨ area = f old) : area.views ≠ [] → area.isShown = true := by
    rcases ha with rfl | rfl
    · exact h _ hold
    · exact hf old (h old hold)
  have hdetached : n.areas.2 ∈ n.areas.1 ++ [n.areas.2] := by simp
  intro area ha
  rw [areas_modifyArea] at ha
  cases hg : n.cellOf? g with
  | none =>
    simp only [hg, List.mem_append, List.mem_singleton] at ha
    rcases ha with hcell | rfl
    · exact h area (List.mem_append_left _ hcell)
    · exact hafter hdetached (.inr rfl)
  | some index =>
    simp only [hg, List.mem_append, List.mem_singleton] at ha
    rcases ha with hcell | rfl
    · obtain ⟨old, hold, hnew⟩ := mem_modify hcell
      exact hafter (List.mem_append_left _ hold) hnew
    · exact h _ hdetached

theorem Revealed.append (h : n.Revealed) (id : ViewId) (g : GroupKey) :
    (n.modifyArea g fun area => (area.append id).reveal).Revealed :=
  h.modifyArea (fun _ _ _ => rfl) g

theorem Revealed.remove (h : n.Revealed) (id : ViewId) (g : GroupKey) :
    (n.modifyArea g (·.remove id)).Revealed := by
  have hremove (area : WidgetArea) (hold : area.views ≠ [] → area.isShown = true)
      (hne : (area.remove id).views ≠ []) : (area.remove id).isShown = true := by
    refine hold fun hnone => hne ?_
    rw [WidgetArea.remove, hnone, List.filter_nil]
  exact h.modifyArea hremove g

theorem Revealed.execute (h : n.Revealed) {index : Nat} {message : String}
    (he : n.execute index message = .ok n') : n'.Revealed := by
  intro area ha hne
  rw [areas_execute he] at ha
  simp only [List.mem_append, List.mem_replicate, List.mem_singleton] at ha
  rcases ha with (hold | ⟨_, hempty⟩) | hdetached
  · exact h area (List.mem_append_left _ hold) hne
  · exact absurd (congrArg WidgetArea.views hempty) hne
  · exact h area (List.mem_append_right _ (List.mem_singleton.mpr hdetached)) hne

/-- What areas list is shown then. -/
theorem Revealed.shown_eq (h : n.Revealed) : n.shown = n.listed := by
  have hall : n.shown = (n.areas.1 ++ [n.areas.2]).flatMap (·.views) := by
    refine List.flatMap_congr fun area ha => ?_
    by_cases hnone : area.views = []
    · rw [hnone, ite_self]
    · rw [if_pos (h area ha hnone)]
  rw [hall, listed, List.flatMap_append, List.flatMap_singleton]

end WidgetSync.Notebook
