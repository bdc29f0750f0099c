import WidgetSync.Manager.Basic
import WidgetSync.Proofs.OrdMap
import Mathlib.Logic.Relation

/-! The live views as a forest. A host lists its children, a child is younger than its host, and so the walk
below a view ends: it lists the view and everything below it once, each host after its children. -/
namespace WidgetSync

namespace Arena

def Hosts (views : Arena) (host child : ViewId) : Prop :=
  ∃ slot, views.get? host = some slot ∧ child ∈ slot.view.children

/-- Reached from a view by going to hosted views, in no step or in some. -/
def Below (views : Arena) : ViewId → ViewId → Prop := Relation.ReflTransGen views.Hosts

/-- What hosts list is live and placed there, once, and came later. -/
structure Forest (views : Arena) : Prop where
  placed : ∀ host child, views.Hosts host child →
    ∃ slot, views.get? child = some slot ∧ slot.placement = .host host
  once : ∀ host slot, views.get? host = some slot → slot.view.children.Nodup
  after : ∀ host child, views.Hosts host child → host.index < child.index

/-- What comes of a view, made of what comes of each view that it hosts, to a depth of `fuel`. -/
def fold {α : Type} (views : Arena) (dead : α) (live : ViewId → Slot → List α → α) :
    (fuel : Nat) → ViewId → α
  | 0, _ => dead
  | fuel + 1, id =>
    match views.get? id with
    | none => dead
    | some slot => live id slot (slot.view.children.map (views.fold dead live fuel))

/-- The views below a view, children in their order and each host last, to a depth of `fuel`. -/
def walk (views : Arena) : (fuel : Nat) → ViewId → List ViewId
  | 0, _ => []
  | fuel + 1, id =>
    match views.get? id with
    | none => []
    | some slot => slot.view.children.flatMap (views.walk fuel) ++ [id]

/-- The view and all below it. No view is hosted deeper than there are views. -/
def subtree (views : Arena) (id : ViewId) : List ViewId := views.walk views.size id

/-- How many live views are not older than a view. -/
def reach (views : Arena) (id : ViewId) : Nat := views.keys.countP fun k => id.index ≤ k.index

variable {views : Arena}

theorem reach_le_size (views : Arena) (id : ViewId) : views.reach id ≤ views.size := by
  have h := @List.countP_le_length ViewId (fun k => id.index ≤ k.index) views.keys
  rwa [OrdMap.keys, List.length_map] at h

theorem reach_pos {id : ViewId} {slot : Slot} (h : views.get? id = some slot) :
    0 < views.reach id := by
  refine List.countP_pos_iff.mpr ⟨id, OrdMap.mem_keys.mpr ⟨slot, h⟩, ?_⟩
  simp

theorem walk_eq_fold (views : Arena) (fuel : Nat) (id : ViewId) :
    views.walk fuel id = views.fold [] (fun id _ below => below.flatten ++ [id]) fuel id := by
  induction fuel generalizing id with
  | zero => rfl
  | succ fuel ih =>
    have hsame : views.walk fuel = views.fold [] (fun id _ below => below.flatten ++ [id]) fuel := funext ih
    rw [walk, fold, hsame]
    cases views.get? id with
    | none => rfl
    | some slot => simp only [List.flatMap_def]

namespace Forest

variable (hf : views.Forest)
include hf

/-- Going down, fewer and fewer views are as young. -/
theorem reach_lt {host child : ViewId} (h : views.Hosts host child) :
    views.reach child < views.reach host := by
  have hlt := hf.after host child h
  obtain ⟨slot, hs, _⟩ := h
  -- The host itself counts for the host and not for the child; split the keys there.
  have hmem : host ∈ views.keys := OrdMap.mem_keys.mpr ⟨slot, hs⟩
  obtain ⟨before, rest, hk⟩ := List.append_of_mem hmem
  have hmono (l : List ViewId) : l.countP (fun k => child.index ≤ k.index) ≤
      l.countP (fun k => host.index ≤ k.index) := by
    refine List.countP_mono_left fun k _ hc => ?_
    simp only [decide_eq_true_eq] at hc ⊢
    omega
  have hb := hmono before
  have hr := hmono rest
  simp only [reach, hk, List.countP_append, List.countP_cons, decide_eq_true_eq, Nat.le_refl,
    if_true]
  have hn : ¬child.index ≤ host.index := by omega
  rw [if_neg hn]
  omega

/-- What holds of a view as soon as it holds of all that it hosts holds of every view. -/
theorem induction {P : ViewId → Prop}
    (step : ∀ id, (∀ child, views.Hosts id child → P child) → P id) (id : ViewId) : P id := by
  -- Induction on a bound for the reach, which shrinks on the way down.
  suffices hs : ∀ n id, views.reach id ≤ n → P id from hs _ id (Nat.le_refl _)
  intro n
  induction n with
  | zero =>
    intro id hid
    refine step id fun child hc => ?_
    have := hf.reach_lt hc
    omega
  | succ n ih =>
    intro id hid
    refine step id fun child hc => ih child ?_
    have := hf.reach_lt hc
    omega

section Fold

variable {α : Type} {dead : α} {live : ViewId → Slot → List α → α}

/-- More fuel than views are as young changes nothing. -/
theorem fold_succ {fuel : Nat} {id : ViewId} (h : views.reach id ≤ fuel) :
    views.fold dead live (fuel + 1) id = views.fold dead live fuel id := by
  induction fuel generalizing id with
  | zero =>
    cases hs : views.get? id with
    | none => simp [fold, hs]
    | some slot =>
      have := reach_pos hs
      omega
  | succ fuel ih =>
    cases hs : views.get? id with
    | none => simp [fold, hs]
    | some slot =>
      rw [fold, fold, hs]
      simp only
      congr 1
      refine List.map_congr_left fun child hc => ih ?_
      have := hf.reach_lt ⟨slot, hs, hc⟩
      omega

theorem fold_eq {fuel : Nat} {id : ViewId} (h : views.reach id ≤ fuel) :
    views.fold dead live fuel id = views.fold dead live views.size id := by
  -- Both are the one with just enough fuel.
  have hstable (k : Nat) : views.fold dead live (views.reach id + k) id =
      views.fold dead live (views.reach id) id := by
    induction k with
    | zero => rfl
    | succ k ih => exact (hf.fold_succ (Nat.le_add_right _ k)).trans ih
  have hsize := views.reach_le_size id
  rw [← Nat.add_sub_of_le h, hstable, ← Nat.add_sub_of_le hsize, hstable]

/-- With fuel for all views, what comes of a view is made of what comes of the views that it hosts. -/
theorem fold_of_live {id : ViewId} {slot : Slot} (h : views.get? id = some slot) :
    views.fold dead live views.size id =
      live id slot (slot.view.children.map (views.fold dead live views.size)) := by
  have hpos : 0 < views.size := Nat.lt_of_lt_of_le (reach_pos h) (views.reach_le_size id)
  obtain ⟨fuel, hfuel⟩ : ∃ fuel, views.size = fuel + 1 := ⟨views.size - 1, by omega⟩
  have hroot : views.fold dead live (fuel + 1) id =
      live id slot (slot.view.children.map (views.fold dead live fuel)) := by
    rw [fold, h]
  -- One unit of fuel went to the host, and its children need less by one at least.
  rw [hfuel, hroot, ← hfuel]
  congr 1
  refine List.map_congr_left fun child hc => hf.fold_eq ?_
  have h1 := hf.reach_lt ⟨slot, h, hc⟩
  have h2 := views.reach_le_size id
  omega

end Fold

/-- A walk lists the walks below the children, and then the view. -/
theorem subtree_eq {id : ViewId} {slot : Slot} (h : views.get? id = some slot) :
    views.subtree id = slot.view.children.flatMap views.subtree ++ [id] := by
  have hfold : views.subtree = views.fold [] (fun id _ below => below.flatten ++ [id]) views.size :=
    funext (views.walk_eq_fold views.size)
  rw [hfold, hf.fold_of_live h, List.flatMap_def]

end Forest

theorem fold_of_dead {α : Type} {dead : α} {live : ViewId → Slot → List α → α} {id : ViewId}
    (h : views.get? id = none) (fuel : Nat) : views.fold dead live fuel id = dead := by
  cases fuel <;> simp [fold, h]

theorem subtree_of_dead {id : ViewId} (h : views.get? id = none) : views.subtree id = [] := by
  cases hs : views.size <;> simp [subtree, hs, walk, h]

/-- A live view has itself in its subtree. -/
theorem Forest.mem_subtree_self (hf : views.Forest) {id : ViewId} {slot : Slot}
    (h : views.get? id = some slot) : id ∈ views.subtree id := by
  rw [hf.subtree_eq h]
  simp

theorem Forest.below_of_mem_subtree (hf : views.Forest) {id x : ViewId} :
    x ∈ views.subtree id → views.Below id x := by
  induction id using hf.induction with
  | step id ih =>
    intro hx
    cases hs : views.get? id with
    | none =>
      rw [subtree_of_dead hs] at hx
      exact absurd hx List.not_mem_nil
    | some slot =>
      rw [hf.subtree_eq hs, List.mem_append, List.mem_flatMap, List.mem_singleton] at hx
      rcases hx with ⟨child, hc, hx⟩ | rfl
      · exact .head ⟨slot, hs, hc⟩ (ih child ⟨slot, hs, hc⟩ hx)
      · exact .refl

theorem Forest.mem_subtree_of_below (hf : views.Forest) {id x : ViewId} (h : views.Below id x)
    {slot : Slot} (hs : views.get? id = some slot) : x ∈ views.subtree id := by
  induction h using Relation.ReflTransGen.head_induction_on generalizing slot with
  | refl => exact hf.mem_subtree_self hs
  | head hc _ ih =>
    obtain ⟨_, hcs, _⟩ := hf.placed _ _ hc
    obtain ⟨slot', hs', hmem⟩ := hc
    rw [hf.subtree_eq hs']
    exact List.mem_append_left _ (List.mem_flatMap.mpr ⟨_, hmem, ih hcs⟩)

/-- The subtree of a live view holds exactly what is below it. -/
theorem Forest.mem_subtree (hf : views.Forest) {id x : ViewId} {slot : Slot}
    (hs : views.get? id = some slot) : x ∈ views.subtree id ↔ views.Below id x :=
  ⟨hf.below_of_mem_subtree, fun h => hf.mem_subtree_of_below h hs⟩

/-- Everything in a subtree is live. -/
theorem Forest.live_of_mem_subtree (hf : views.Forest) {id x : ViewId} (h : x ∈ views.subtree id) :
    ∃ slot, views.get? x = some slot := by
  cases hs : views.get? id with
  | none =>
    rw [subtree_of_dead hs] at h
    exact absurd h List.not_mem_nil
  | some slot =>
    -- The root is live, and everything else is hosted.
    rcases Relation.ReflTransGen.cases_tail (hf.below_of_mem_subtree h) with he | ⟨host, _, hc⟩
    · exact ⟨slot, he ▸ hs⟩
    · obtain ⟨xslot, hx, _⟩ := hf.placed host x hc
      exact ⟨xslot, hx⟩

theorem Forest.index_le_of_below (hf : views.Forest) {a b : ViewId} (h : views.Below a b) :
    a.index ≤ b.index := by
  induction h with
  | refl => exact Nat.le_refl _
  | tail _ hc ih =>
    have := hf.after _ _ hc
    omega

/-- A view has one host. -/
theorem Forest.host_unique (hf : views.Forest) {h h' child : ViewId} (hc : views.Hosts h child)
    (hc' : views.Hosts h' child) : h = h' := by
  obtain ⟨slot, hs, hp⟩ := hf.placed h child hc
  obtain ⟨slot', hs', hp'⟩ := hf.placed h' child hc'
  obtain rfl : slot = slot' := Option.some.inj (hs.symm.trans hs')
  exact Placement.host.inj (hp.symm.trans hp')

/-- Of two views that are above a third, one is above the other. -/
theorem Forest.below_total (hf : views.Forest) {a b x : ViewId} (ha : views.Below a x)
    (hb : views.Below b x) : views.Below a b ∨ views.Below b a := by
  -- Go up from the third view: both paths arrive at it from its one host.
  induction ha with
  | refl => exact .inr hb
  | @tail y z hay hyz ih =>
    rcases Relation.ReflTransGen.cases_tail hb with rfl | ⟨y', hby', hy'z⟩
    · exact .inl (hay.tail hyz)
    · obtain rfl := hf.host_unique hyz hy'z
      exact ih hby'

/-- A view hosted below another is hosted by it or below what it hosts. -/
theorem Forest.below_host (hf : views.Forest) {a host child : ViewId} (h : views.Below a child)
    (hc : views.Hosts host child) (hne : a ≠ child) : views.Below a host := by
  rcases Relation.ReflTransGen.cases_tail h with he | ⟨h', hah', hc'⟩
  · exact absurd he.symm hne
  · exact hf.host_unique hc' hc ▸ hah'

/-- The subtrees of two children of one host have nothing in common. -/
theorem Forest.siblings_disjoint (hf : views.Forest) {host c d : ViewId} (hc : views.Hosts host c)
    (hd : views.Hosts host d) (hne : c ≠ d) : List.Disjoint (views.subtree c) (views.subtree d) := by
  have hsep {a b : ViewId} (ha : views.Hosts host a) (hb : views.Hosts host b) (hab : a ≠ b)
      (h : views.Below a b) : False := by
    -- Below a sibling means below the host by way of the sibling, which is younger than the host.
    have hup := hf.index_le_of_below (hf.below_host h hb hab)
    have hdown := hf.after host a ha
    omega
  intro x hxc hxd
  rcases hf.below_total (hf.below_of_mem_subtree hxc) (hf.below_of_mem_subtree hxd) with h | h
  · exact hsep hc hd hne h
  · exact hsep hd hc hne.symm h

/-- A host is in no subtree of its children. -/
theorem Forest.not_mem_subtree_child (hf : views.Forest) {host child : ViewId}
    (h : views.Hosts host child) : host ∉ views.subtree child := by
  intro hm
  have h1 := hf.after host child h
  have h2 := hf.index_le_of_below (hf.below_of_mem_subtree hm)
  omega

/-- A walk meets no view twice. -/
theorem Forest.subtree_nodup (hf : views.Forest) (id : ViewId) : (views.subtree id).Nodup := by
  induction id using hf.induction with
  | step id ih =>
    cases hs : views.get? id with
    | none =>
      rw [subtree_of_dead hs]
      exact List.nodup_nil
    | some slot =>
      have hosts {child : ViewId} (hc : child ∈ slot.view.children) : views.Hosts id child :=
        ⟨slot, hs, hc⟩
      rw [hf.subtree_eq hs]
      -- Each child's walk is without repetition, the walks of two children do not meet,
      -- and the host is on none of them.
      refine List.nodup_append.mpr ⟨List.nodup_flatMap.mpr ⟨fun c hc => ih c (hosts hc), ?_⟩,
        List.nodup_singleton id, fun x hx y hy => ?_⟩
      · exact (hf.once id slot hs).imp_of_mem fun hc hd hne =>
          hf.siblings_disjoint (hosts hc) (hosts hd) hne
      · obtain ⟨child, hc, hxc⟩ := List.mem_flatMap.mp hx
        rintro rfl
        exact hf.not_mem_subtree_child (hosts hc) (List.mem_singleton.mp hy ▸ hxc)

end Arena

end WidgetSync
