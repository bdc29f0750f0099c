import WidgetSync.Proofs.Arena.Walk

/-! Arenas that views have left. What is left of a forest is a forest, and a walk through it is the walk through
the whole one without the views that are gone. Taking subtrees out one after the other takes out each view at
its first occurrence. -/
namespace WidgetSync

/-- A view whose hosted views have gone in part. -/
def Slot.without (slot : Slot) (gone : List ViewId) : Slot :=
  { slot with view := { slot.view with children := slot.view.children.filter (· ∉ gone) } }

theorem Slot.without_eq_self {slot : Slot} {gone : List ViewId}
    (h : ∀ child ∈ slot.view.children, child ∉ gone) : slot.without gone = slot := by
  have hc : slot.view.children.filter (· ∉ gone) = slot.view.children :=
    List.filter_eq_self.mpr fun c hm => decide_eq_true (h c hm)
  rw [without, hc]

namespace Arena

/-- The arena without some views. -/
def without (views : Arena) (gone : List ViewId) : Arena :=
  (views.filter fun id _ => id ∉ gone).mapValues fun _ slot => slot.without gone

/-- The order in which views go when the subtrees of some roots are taken out one after the other. -/
def sweep (views : Arena) : List ViewId → List ViewId
  | [] => []
  | root :: rest => views.subtree root ++ (views.without (views.subtree root)).sweep rest

variable {views : Arena} {gone : List ViewId}

theorem get?_without (views : Arena) (gone : List ViewId) (id : ViewId) :
    (views.without gone).get? id =
      if id ∈ gone then none else (views.get? id).map (·.without gone) := by
  rw [without, OrdMap.get?_mapValues, OrdMap.get?_filter]
  split
  · next h => cases views.get? id <;> simp [Option.filter, h]
  · next h => cases views.get? id <;> simp [Option.filter, h]

theorem get?_without_eq_some {id : ViewId} {slot' : Slot} :
    (views.without gone).get? id = some slot' ↔
      id ∉ gone ∧ ∃ slot, views.get? id = some slot ∧ slot.without gone = slot' := by
  rw [get?_without]
  split
  · next h => simp [h]
  · next h => simp [h]

theorem without_nil (views : Arena) : views.without [] = views := by
  refine OrdMap.ext fun id => ?_
  rw [get?_without, if_neg List.not_mem_nil]
  cases views.get? id with
  | none => rfl
  | some slot => exact congrArg some (Slot.without_eq_self fun c _ => List.not_mem_nil)

theorem without_without (views : Arena) (gone more : List ViewId) :
    (views.without gone).without more = views.without (gone ++ more) := by
  refine OrdMap.ext fun id => ?_
  simp only [get?_without, List.mem_append]
  by_cases h1 : id ∈ gone <;> by_cases h2 : id ∈ more <;> simp [h1, h2]
  cases views.get? id with
  | none => rfl
  | some slot => simp [Slot.without, List.filter_filter, Bool.and_comm]

/-- Only which views are gone matters. -/
theorem without_congr {more : List ViewId} (h : ∀ x, x ∈ gone ↔ x ∈ more) :
    views.without gone = views.without more := by
  refine OrdMap.ext fun id => ?_
  simp only [get?_without, Slot.without, h]

theorem hosts_without {host child : ViewId} :
    (views.without gone).Hosts host child ↔
      views.Hosts host child ∧ host ∉ gone ∧ child ∉ gone := by
  constructor
  · rintro ⟨slot', hs, hc⟩
    obtain ⟨hh, slot, hslot, rfl⟩ := get?_without_eq_some.mp hs
    obtain ⟨hc, hg⟩ := List.mem_filter.mp hc
    exact ⟨⟨slot, hslot, hc⟩, hh, of_decide_eq_true hg⟩
  · rintro ⟨⟨slot, hslot, hc⟩, hh, hg⟩
    exact ⟨slot.without gone, get?_without_eq_some.mpr ⟨hh, slot, hslot, rfl⟩,
      List.mem_filter.mpr ⟨hc, decide_eq_true hg⟩⟩

theorem Forest.without (hf : views.Forest) (gone : List ViewId) : (views.without gone).Forest where
  placed := by
    intro host child h
    obtain ⟨hc, _, hg⟩ := hosts_without.mp h
    obtain ⟨slot, hs, hp⟩ := hf.placed host child hc
    exact ⟨slot.without gone, get?_without_eq_some.mpr ⟨hg, slot, hs, rfl⟩, hp⟩
  once := by
    intro host slot' h
    obtain ⟨_, slot, hs, rfl⟩ := get?_without_eq_some.mp h
    exact (hf.once host slot hs).filter _
  after := by
    intro host child h
    exact hf.after host child (hosts_without.mp h).1

theorem reach_without_le (views : Arena) (gone : List ViewId) (id : ViewId) :
    (views.without gone).reach id ≤ views.reach id := by
  -- The keys that are left are some of the keys, in their order.
  have hk : (views.without gone).keys.Sublist views.keys := by
    simp only [OrdMap.keys, Arena.without, OrdMap.mapValues, OrdMap.filter, List.map_map]
    exact List.filter_sublist.map _
  exact hk.countP_le

/-- What hosted views contribute is not missed when those that contribute nothing are left out. -/
theorem flatMap_filter_congr {p : ViewId → Bool} {f g : ViewId → List ViewId} {l : List ViewId}
    (hout : ∀ c ∈ l, p c = false → g c = []) (hin : ∀ c ∈ l, p c = true → f c = g c) :
    (l.filter p).flatMap f = l.flatMap g := by
  induction l with
  | nil => rfl
  | cons c rest ih =>
    have hrest := ih (fun d hd => hout d (List.mem_cons_of_mem _ hd))
      fun d hd => hin d (List.mem_cons_of_mem _ hd)
    cases hp : p c with
    | true =>
      rw [List.filter_cons_of_pos hp, List.flatMap_cons, List.flatMap_cons, hrest,
        hin c List.mem_cons_self hp]
    | false =>
      have hn : ¬p c = true := by rw [hp]; decide
      rw [List.filter_cons_of_neg hn, List.flatMap_cons, hrest, hout c List.mem_cons_self hp]
      rfl

/-- If views that are gone took all below them along, a walk skips exactly the views that are gone. -/
theorem Forest.subtree_without (hf : views.Forest) {id : ViewId}
    (h : ∀ x ∈ gone, x ∈ views.subtree id → ∀ y ∈ views.subtree x, y ∈ gone) :
    (views.without gone).subtree id = (views.subtree id).filter (· ∉ gone) := by
  induction id using hf.induction with
  | step id ih =>
    cases hs : views.get? id with
    | none =>
      have hn : (views.without gone).get? id = none := by simp [get?_without, hs]
      rw [subtree_of_dead hs, subtree_of_dead hn]
      rfl
    | some slot =>
      by_cases hg : id ∈ gone
      · -- The root is gone, and with it everything that its walk would meet.
        have hn : (views.without gone).get? id = none := by simp [get?_without, hg]
        rw [subtree_of_dead hn]
        refine (List.filter_eq_nil_iff.mpr fun y hy => ?_).symm
        simpa using h id hg (hf.mem_subtree_self hs) y hy
      · have hn : (views.without gone).get? id = some (slot.without gone) :=
          get?_without_eq_some.mpr ⟨hg, slot, hs, rfl⟩
        have hsub {c x : ViewId} (hc : c ∈ slot.view.children) (hx : x ∈ views.subtree c) :
            x ∈ views.subtree id := by
          rw [hf.subtree_eq hs]
          exact List.mem_append_left _ (List.mem_flatMap.mpr ⟨c, hc, hx⟩)
        rw [(hf.without gone).subtree_eq hn, hf.subtree_eq hs, List.filter_append,
          List.filter_flatMap]
        -- The root stays at the end; its children are looked at one by one.
        congr 1
        · refine flatMap_filter_congr (fun c hc hp => ?_) fun c hc _ => ?_
          · -- A child that is gone took its subtree along.
            have hcg : c ∈ gone := by simpa using hp
            obtain ⟨cslot, hcs, _⟩ := hf.placed id c ⟨slot, hs, hc⟩
            refine List.filter_eq_nil_iff.mpr fun y hy => ?_
            simpa using h c hcg (hsub hc (hf.mem_subtree_self hcs)) y hy
          · exact ih c ⟨slot, hs, hc⟩ fun x hx hxc => h x hx (hsub hc hxc)
        · simp [hg]

/-- A walk that meets nothing that is gone stays as it is. -/
theorem Forest.subtree_without_of_disjoint (hf : views.Forest) {id : ViewId}
    (h : List.Disjoint gone (views.subtree id)) :
    (views.without gone).subtree id = views.subtree id := by
  rw [hf.subtree_without fun x hx hxs => absurd hxs (h hx)]
  exact List.filter_eq_self.mpr fun x hx => decide_eq_true fun hg => h hg hx

theorem Forest.sweep_of_disjoint (hf : views.Forest) {roots : List ViewId}
    (hr : roots.Pairwise fun a b => List.Disjoint (views.subtree a) (views.subtree b))
    (hg : ∀ r ∈ roots, List.Disjoint gone (views.subtree r)) :
    (views.without gone).sweep roots = roots.flatMap views.subtree := by
  induction roots generalizing gone with
  | nil => rfl
  | cons root rest ih =>
    obtain ⟨hroot, hrest⟩ := List.pairwise_cons.mp hr
    -- The subtree of the root is whole, and its loss does not touch those of the others.
    have hsame := hf.subtree_without_of_disjoint (hg root List.mem_cons_self)
    rw [sweep, hsame, without_without, List.flatMap_cons]
    congr 1
    refine ih hrest fun r hm => List.disjoint_append_left.mpr ⟨?_, hroot r hm⟩
    exact hg r (List.mem_cons_of_mem _ hm)

/-- Taking out the children of a view that went already lists their subtrees. -/
theorem Forest.sweep_children (hf : views.Forest) {id : ViewId} {slot : Slot}
    (hs : views.get? id = some slot) :
    (views.without [id]).sweep slot.view.children = slot.view.children.flatMap views.subtree := by
  refine hf.sweep_of_disjoint ?_ fun c hc => ?_
  · exact (hf.once id slot hs).imp_of_mem fun hc hd hne =>
      hf.siblings_disjoint ⟨slot, hs, hc⟩ ⟨slot, hs, hd⟩ hne
  · intro x hx
    obtain rfl := List.mem_singleton.mp hx
    exact hf.not_mem_subtree_child ⟨slot, hs, hc⟩

/-- The views that are gone took all below them along. -/
def Closed (views : Arena) (gone : List ViewId) : Prop := ∀ x ∈ gone, ∀ y ∈ views.subtree x, y ∈ gone

theorem Forest.closed_subtree (hf : views.Forest) (id : ViewId) :
    views.Closed (views.subtree id) := by
  intro x hx y hy
  obtain ⟨slot, hs⟩ : ∃ slot, views.get? id = some slot := by
    cases hs : views.get? id with
    | some slot => exact ⟨slot, rfl⟩
    | none =>
      rw [subtree_of_dead hs] at hx
      exact absurd hx List.not_mem_nil
  exact hf.mem_subtree_of_below
    ((hf.below_of_mem_subtree hx).trans (hf.below_of_mem_subtree hy)) hs

theorem eraseDups_of_nodup {l : List ViewId} (h : l.Nodup) : l.eraseDups = l := by
  induction l with
  | nil => rfl
  | cons a rest ih =>
    obtain ⟨ha, hrest⟩ := List.nodup_cons.mp h
    have hf : rest.filter (fun b => !b == a) = rest := by
      refine List.filter_eq_self.mpr fun b hb => ?_
      have hne : b ≠ a := fun he => ha (he ▸ hb)
      simpa using hne
    rw [List.eraseDups_cons, hf, ih hrest]

theorem removeAll_append (l xs ys : List ViewId) :
    l.removeAll (xs ++ ys) = (l.removeAll xs).removeAll ys := by
  simp [List.removeAll, List.filter_filter, Bool.and_comm]

/-- A sweep lists the subtrees of its roots one after the other, each view where it comes first. -/
theorem Forest.sweep_without (hf : views.Forest) (hg : views.Closed gone) (roots : List ViewId) :
    (views.without gone).sweep roots = ((roots.flatMap views.subtree).removeAll gone).eraseDups := by
  -- What is gone grows by each root's subtree, and stays closed.
  induction roots generalizing gone with
  | nil => rfl
  | cons root rest ih =>
    have hroot : (views.without gone).subtree root = (views.subtree root).removeAll gone := by
      rw [hf.subtree_without fun x hx _ => hg x hx, List.removeAll]
      refine List.filter_congr fun x _ => ?_
      simp
    have hclosed : views.Closed (gone ++ (views.subtree root).removeAll gone) := by
      intro x hx y hy
      have hall {z : ViewId} (hz : z ∈ views.subtree root) :
          z ∈ gone ++ (views.subtree root).removeAll gone := by
        by_cases hzg : z ∈ gone
        · exact List.mem_append_left _ hzg
        · exact List.mem_append_right _ (List.mem_filter.mpr ⟨hz, by simpa using hzg⟩)
      rcases List.mem_append.mp hx with hx | hx
      · exact List.mem_append_left _ (hg x hx y hy)
      · exact hall (hf.closed_subtree root x (List.mem_of_mem_filter hx) y hy)
    have hn : ((views.subtree root).removeAll gone).Nodup := (hf.subtree_nodup root).filter _
    have hflat : ((root :: rest).flatMap views.subtree).removeAll gone =
        (views.subtree root).removeAll gone ++ (rest.flatMap views.subtree).removeAll gone := by
      rw [List.flatMap_cons, List.removeAll, List.filter_append]
      rfl
    rw [sweep, hroot, without_without, ih hclosed, hflat, List.eraseDups_append,
      eraseDups_of_nodup hn, removeAll_append]

theorem Forest.sweep_eq (hf : views.Forest) (roots : List ViewId) :
    views.sweep roots = (roots.flatMap views.subtree).eraseDups := by
  have hnil : views.Closed [] := fun x hx => absurd hx List.not_mem_nil
  have h := hf.sweep_without hnil roots
  rwa [without_nil, List.removeAll_nil] at h

theorem Forest.sweep_nodup (hf : views.Forest) (roots : List ViewId) :
    (views.sweep roots).Nodup := by
  induction roots generalizing views with
  | nil => exact List.nodup_nil
  | cons root rest ih =>
    rw [sweep]
    refine List.nodup_append.mpr ⟨hf.subtree_nodup root, ih (hf.without _), fun x hx y hy => ?_⟩
    rintro rfl
    -- What is swept later is live in what the first subtree left.
    rw [(hf.without _).sweep_eq, List.mem_eraseDups, List.mem_flatMap] at hy
    obtain ⟨r, _, hxr⟩ := hy
    obtain ⟨slot, hs⟩ := (hf.without _).live_of_mem_subtree hxr
    exact (get?_without_eq_some.mp hs).1 hx

theorem Forest.mem_sweep (hf : views.Forest) {roots : List ViewId} {x : ViewId} :
    x ∈ views.sweep roots ↔ ∃ root ∈ roots, x ∈ views.subtree root := by
  rw [hf.sweep_eq, List.mem_eraseDups, List.mem_flatMap]

theorem Forest.closed_sweep (hf : views.Forest) (roots : List ViewId) :
    views.Closed (views.sweep roots) := by
  intro x hx y hy
  obtain ⟨root, hr, hxr⟩ := hf.mem_sweep.mp hx
  exact hf.mem_sweep.mpr ⟨root, hr, hf.closed_subtree root x hxr y hy⟩

end Arena

end WidgetSync
