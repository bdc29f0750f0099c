import WidgetSync.Proofs.Model.Run

/-! The views that a model knows: under which group each is registered, who is subscribed, and what
registering a new view and deregistering an old one do to both. -/
namespace WidgetSync.Model

theorem mem_viewsIn {m : Model} {group : GroupKey} {id : ViewId} :
    id ∈ m.viewsIn group ↔ ∃ views, m.groups.get? group = some views ∧ id ∈ views := by
  rw [viewsIn]
  cases m.groups.get? group <;> simp

theorem mem_views {m : Model} {id : ViewId} : id ∈ m.views ↔ ∃ group, id ∈ m.viewsIn group := by
  simp only [views, List.mem_flatten, OrdMap.mem_values, mem_viewsIn]
  constructor
  · rintro ⟨views, ⟨group, hg⟩, hid⟩
    exact ⟨group, views, hg, hid⟩
  · rintro ⟨group, views, hg, hid⟩
    exact ⟨views, ⟨group, hg⟩, hid⟩

/-- Each view is registered once: no group lists one twice, and no two groups share one. -/
theorem views_nodup_iff {m : Model} :
    m.views.Nodup ↔ (∀ group, (m.viewsIn group).Nodup) ∧
      ∀ g g' id, id ∈ m.viewsIn g → id ∈ m.viewsIn g' → g = g' := by
  rw [views, List.nodup_flatten]
  constructor
  · rintro ⟨hn, hp⟩
    refine ⟨fun group => ?_, fun g g' id hg hg' => ?_⟩
    · rw [viewsIn]
      cases h : m.groups.get? group with
      | none => exact List.nodup_nil
      | some views => exact hn views (OrdMap.mem_values.mpr ⟨group, h⟩)
    · -- Two groups that share a view would be two lists that do.
      by_contra hne
      obtain ⟨xs, hx, hidx⟩ := mem_viewsIn.mp hg
      obtain ⟨ys, hy, hidy⟩ := mem_viewsIn.mp hg'
      have hd := OrdMap.rel_of_pairwise_values (fun _ _ => List.disjoint_symm) hp hne hx hy
      exact hd hidx hidy
  · rintro ⟨hn, hu⟩
    refine ⟨fun views hv => ?_, OrdMap.pairwise_values fun k l xs ys hne hx hy id hidx hidy => ?_⟩
    · obtain ⟨group, h⟩ := OrdMap.mem_values.mp hv
      simpa [viewsIn, h] using hn group
    · exact hne (hu k l id (mem_viewsIn.mpr ⟨xs, hx, hidx⟩) (mem_viewsIn.mpr ⟨ys, hy, hidy⟩))

theorem mem_viewsIn_of_groupOf? {m : Model} {id : ViewId} {group : GroupKey}
    (h : m.groupOf? id = some group) : id ∈ m.viewsIn group := by
  simp only [groupOf?, OrdMap.firstWhere?, Option.map_eq_some_iff, Prod.exists] at h
  obtain ⟨g, views, hf, rfl⟩ := h
  have hm : (g, views) ∈ m.groups.entries := List.mem_of_find?_eq_some hf
  have hid : views.contains id = true := by simpa using List.find?_some hf
  exact mem_viewsIn.mpr ⟨views, OrdMap.get?_eq_some_iff.mpr hm, List.contains_iff_mem.mp hid⟩

theorem groupOf?_eq_none_iff {m : Model} {id : ViewId} : m.groupOf? id = none ↔ id ∉ m.views := by
  simp only [groupOf?, OrdMap.firstWhere?, Option.map_eq_none_iff, List.find?_eq_none, Prod.forall,
    mem_views, not_exists, mem_viewsIn, not_and, Bool.not_eq_true, ← OrdMap.get?_eq_some_iff]
  constructor
  · intro h group views hg hid
    have hc := h group views hg
    rw [List.contains_iff_mem.mpr hid] at hc
    exact absurd hc (by decide)
  · intro h group views hg
    by_contra hc
    rw [Bool.not_eq_false] at hc
    exact h group views hg (List.contains_iff_mem.mp hc)

theorem hasViews_eq_false {m : Model} (h : m.hasViews = false) : m.views = [] := by
  have he : m.groups.isEmpty = true := by simpa [hasViews] using h
  rw [views, OrdMap.eq_empty_of_isEmpty he]
  rfl

/-! ### Registering and deregistering -/

/-- A new view of the model, which is registered and subscribed. -/
def enroll (m : Model) (group : GroupKey) (id : ViewId) : Model := (m.addView group id).subscribe id

/-- A view of the model that goes. -/
def leave (m : Model) (id : ViewId) : Model := ((m.unsubscribe id).removeView id).1

theorem viewsIn_addView (m : Model) (group g : GroupKey) (id : ViewId) :
    (m.addView group id).viewsIn g = if group = g then m.viewsIn g ++ [id] else m.viewsIn g := by
  simp only [viewsIn, addView, OrdMap.get?_insert_eq]
  split
  · next h =>
    subst h
    rfl
  · rfl

theorem subscribe_eq (m : Model) (id : ViewId) :
    m.subscribe id =
      { m with subscribers := if id ∈ m.subscribers then m.subscribers else m.subscribers ++ [id] } := by
  rw [subscribe]
  by_cases h : id ∈ m.subscribers
  · simp [h]
  · simp [h]

theorem viewsIn_enroll (m : Model) (group g : GroupKey) (id : ViewId) :
    (m.enroll group id).viewsIn g = if group = g then m.viewsIn g ++ [id] else m.viewsIn g := by
  rw [enroll, subscribe_eq]
  exact m.viewsIn_addView group g id

theorem subscribers_enroll {m : Model} {id : ViewId} (h : id ∉ m.subscribers) (group : GroupKey) :
    (m.enroll group id).subscribers = m.subscribers ++ [id] := by
  rw [enroll, subscribe_eq]
  exact if_neg h

theorem mem_views_enroll {m : Model} {group : GroupKey} {id x : ViewId} :
    x ∈ (m.enroll group id).views ↔ x ∈ m.views ∨ x = id := by
  simp only [mem_views, viewsIn_enroll]
  constructor
  · rintro ⟨g, hx⟩
    split at hx
    · rcases List.mem_append.mp hx with hx | hx
      · exact .inl ⟨g, hx⟩
      · exact .inr (List.mem_singleton.mp hx)
    · exact .inl ⟨g, hx⟩
  · rintro (⟨g, hx⟩ | rfl)
    · refine ⟨g, ?_⟩
      split
      · exact List.mem_append_left _ hx
      · exact hx
    · exact ⟨group, by simp⟩

/-- The groups without a view are filtered one by one. -/
theorem viewsIn_groupsWithout (m : Model) (group g : GroupKey) (id : ViewId) :
    ((m.groupsWithout group id).get? g).getD [] =
      if group = g then (m.viewsIn g).filter (· ≠ id) else m.viewsIn g := by
  rw [groupsWithout]
  split
  · next he =>
    rw [OrdMap.get?_erase]
    split
    · next h =>
      subst h
      rw [he]
      rfl
    · rfl
  · next views _ =>
    rw [OrdMap.get?_insert_eq]
    split
    · next h =>
      subst h
      rfl
    · rfl

theorem viewsIn_leave {m : Model} (hn : m.views.Nodup) (id : ViewId) (g : GroupKey) :
    (m.leave id).viewsIn g = (m.viewsIn g).filter (· ≠ id) := by
  -- A group that does not list the view is left as it is, and filtering does the same.
  have hother (hg : id ∉ m.viewsIn g) : (m.viewsIn g).filter (· ≠ id) = m.viewsIn g := by
    refine List.filter_eq_self.mpr fun x hx => ?_
    have hne : x ≠ id := fun he => hg (he ▸ hx)
    simpa using hne
  have hgroup : (m.unsubscribe id).groupOf? id = m.groupOf? id := rfl
  simp only [leave, removeView, hgroup]
  cases h : m.groupOf? id with
  | none =>
    rw [hother fun hg => groupOf?_eq_none_iff.mp h (mem_views.mpr ⟨g, hg⟩)]
    rfl
  | some group =>
    refine (m.viewsIn_groupsWithout group g id).trans ?_
    split
    · rfl
    · next hne =>
      refine (hother fun hg => hne ?_).symm
      exact (views_nodup_iff.mp hn).2 group g id (mem_viewsIn_of_groupOf? h) hg

theorem leave_subscribers (m : Model) (id : ViewId) :
    (m.leave id).subscribers = m.subscribers.filter (· ≠ id) := by
  simp only [leave, removeView]
  split <;> rfl

/-- What a view that goes leaves alone. -/
theorem leave_keeps (m : Model) (id : ViewId) :
    (m.leave id).typeName = m.typeName ∧ (m.leave id).comm = m.comm ∧
      (m.leave id).attributes = m.attributes ∧ (m.leave id).css = m.css ∧
      (m.leave id).pending = m.pending ∧ (m.leave id).throttle = m.throttle ∧
      (m.leave id).buffer = m.buffer ∧ (m.leave id).updating = m.updating := by
  simp only [leave, removeView]
  split <;> exact ⟨rfl, rfl, rfl, rfl, rfl, rfl, rfl, rfl⟩

theorem mem_views_leave {m : Model} (hn : m.views.Nodup) {id x : ViewId} :
    x ∈ (m.leave id).views ↔ x ∈ m.views ∧ x ≠ id := by
  simp only [mem_views, viewsIn_leave hn, List.mem_filter, decide_not, Bool.not_eq_true',
    decide_eq_false_iff_not]
  exact ⟨fun ⟨g, hx, hne⟩ => ⟨⟨g, hx⟩, hne⟩, fun ⟨⟨g, hx⟩, hne⟩ => ⟨g, hx, hne⟩⟩

/-! ### Tidy registrations -/

/-- Each view of the model is registered once and subscribed once, and no group is empty. -/
structure Tidy (m : Model) : Prop where
  views_nodup : m.views.Nodup
  subscribers_nodup : m.subscribers.Nodup
  mem_subscribers : ∀ id, id ∈ m.subscribers ↔ id ∈ m.views
  group_ne_nil : ∀ group, m.groups.get? group ≠ some []

theorem Tidy.of_same {m m' : Model} (h : m.Tidy) (hg : m'.groups = m.groups)
    (hs : m'.subscribers = m.subscribers) : m'.Tidy where
  views_nodup := by rw [views, hg]; exact h.views_nodup
  subscribers_nodup := by rw [hs]; exact h.subscribers_nodup
  mem_subscribers := by
    intro id
    rw [hs, views, hg]
    exact h.mem_subscribers id
  group_ne_nil := by rw [hg]; exact h.group_ne_nil

theorem Tidy.enroll {m : Model} (h : m.Tidy) {id : ViewId} (hid : id ∉ m.views)
    (group : GroupKey) : (m.enroll group id).Tidy := by
  have hsub : id ∉ m.subscribers := fun hm => hid ((h.mem_subscribers id).mp hm)
  obtain ⟨hn, hu⟩ := views_nodup_iff.mp h.views_nodup
  -- A group lists what it did, and the one group the new view too.
  have hmem (g : GroupKey) (x : ViewId) (hx : x ∈ (m.enroll group id).viewsIn g) :
      x ∈ m.viewsIn g ∨ (x = id ∧ g = group) := by
    rw [viewsIn_enroll] at hx
    split at hx
    · next hg =>
      rcases List.mem_append.mp hx with hx | hx
      · exact .inl hx
      · exact .inr ⟨List.mem_singleton.mp hx, hg.symm⟩
    · exact .inl hx
  have hnot (g : GroupKey) : id ∉ m.viewsIn g := fun hx => hid (mem_views.mpr ⟨g, hx⟩)
  have honce (g : GroupKey) : ((m.enroll group id).viewsIn g).Nodup := by
    rw [viewsIn_enroll]
    split
    · rw [← List.concat_eq_append]
      exact (hn g).concat (hnot g)
    · exact hn g
  have hapart (g g' : GroupKey) (x : ViewId) (hx : x ∈ (m.enroll group id).viewsIn g)
      (hx' : x ∈ (m.enroll group id).viewsIn g') : g = g' := by
    -- Old in both groups, new in both, or a new view that was listed before, which it was not.
    rcases hmem g x hx with hold | ⟨he, hg⟩ <;> rcases hmem g' x hx' with hold' | ⟨he', hg'⟩
    · exact hu g g' x hold hold'
    · exact absurd (he' ▸ hold) (hnot g)
    · exact absurd (he ▸ hold') (hnot g')
    · exact hg.trans hg'.symm
  exact
    { views_nodup := views_nodup_iff.mpr ⟨honce, hapart⟩
      subscribers_nodup := by
        rw [subscribers_enroll hsub, ← List.concat_eq_append]
        exact h.subscribers_nodup.concat hsub
      mem_subscribers := by
        intro x
        rw [subscribers_enroll hsub, mem_views_enroll, List.mem_append, List.mem_singleton,
          h.mem_subscribers]
      group_ne_nil := by
        intro g
        rw [Model.enroll, subscribe_eq]
        simp only [addView, OrdMap.get?_insert_eq]
        split
        · simp
        · exact h.group_ne_nil g }

theorem Tidy.leave {m : Model} (h : m.Tidy) (id : ViewId) : (m.leave id).Tidy := by
  obtain ⟨hn, hu⟩ := views_nodup_iff.mp h.views_nodup
  have hmem (g : GroupKey) (x : ViewId) (hx : x ∈ (m.leave id).viewsIn g) : x ∈ m.viewsIn g := by
    rw [viewsIn_leave h.views_nodup] at hx
    exact List.mem_of_mem_filter hx
  have honce (g : GroupKey) : ((m.leave id).viewsIn g).Nodup := by
    rw [viewsIn_leave h.views_nodup]
    exact (hn g).filter _
  have hapart (g g' : GroupKey) (x : ViewId) (hx : x ∈ (m.leave id).viewsIn g)
      (hx' : x ∈ (m.leave id).viewsIn g') : g = g' := hu g g' x (hmem g x hx) (hmem g' x hx')
  exact
    { views_nodup := views_nodup_iff.mpr ⟨honce, hapart⟩
      subscribers_nodup := by
        rw [leave_subscribers]
        exact h.subscribers_nodup.filter _
      mem_subscribers := by
        intro x
        rw [leave_subscribers, mem_views_leave h.views_nodup, List.mem_filter, h.mem_subscribers]
        simp
      group_ne_nil := by
        intro g
        simp only [Model.leave, removeView]
        split
        · exact h.group_ne_nil g
        · next group _ =>
          -- The group of the view goes if nothing is left of it, so that what stays is not empty.
          simp only [groupsWithout]
          split
          · rw [OrdMap.get?_erase]
            split
            · simp
            · exact h.group_ne_nil g
          · next views hne =>
            rw [OrdMap.get?_insert_eq]
            split
            · intro he
              exact hne (Option.some.inj he)
            · exact h.group_ne_nil g }

theorem Tidy.hasViews_iff {m : Model} (h : m.Tidy) : m.hasViews = true ↔ m.views ≠ [] := by
  constructor
  · intro hv hnil
    -- A group that is there lists a view, since no group is empty.
    have hempty : ∀ group, m.groups.get? group = none := by
      intro group
      cases hg : m.groups.get? group with
      | none => rfl
      | some views =>
        have hne : views ≠ [] := fun he => h.group_ne_nil group (he ▸ hg)
        obtain ⟨x, hx⟩ := List.exists_mem_of_ne_nil views hne
        have hm : x ∈ m.views := mem_views.mpr ⟨group, mem_viewsIn.mpr ⟨views, hg, hx⟩⟩
        rw [hnil] at hm
        exact absurd hm List.not_mem_nil
    have he : m.groups.isEmpty = true := OrdMap.isEmpty_iff.mpr hempty
    rw [hasViews, he] at hv
    exact absurd hv (by decide)
  · intro hne
    by_contra hv
    rw [Bool.not_eq_true] at hv
    exact hne (hasViews_eq_false hv)

/-! ### Several views that go -/

/-- A model that several views have left. -/
def leaveAll (m : Model) (gone : List ViewId) : Model := gone.foldl Model.leave m

theorem Tidy.leaveAll {m : Model} (h : m.Tidy) (gone : List ViewId) : (m.leaveAll gone).Tidy := by
  induction gone generalizing m with
  | nil => exact h
  | cons id rest ih => exact ih (h.leave id)

theorem viewsIn_leaveAll {m : Model} (h : m.Tidy) (gone : List ViewId) (g : GroupKey) :
    (m.leaveAll gone).viewsIn g = (m.viewsIn g).filter (· ∉ gone) := by
  induction gone generalizing m with
  | nil => simp [Model.leaveAll]
  | cons id rest ih =>
    have hrest := ih (h.leave id)
    have hleave := viewsIn_leave h.views_nodup id g
    rw [hleave, List.filter_filter] at hrest
    rw [Model.leaveAll, List.foldl_cons]
    refine hrest.trans (List.filter_congr fun x _ => ?_)
    by_cases hx : x = id <;> simp [hx]

theorem mem_views_leaveAll {m : Model} (h : m.Tidy) {gone : List ViewId} {x : ViewId} :
    x ∈ (m.leaveAll gone).views ↔ x ∈ m.views ∧ x ∉ gone := by
  simp only [mem_views, viewsIn_leaveAll h, List.mem_filter, decide_eq_true_eq]
  exact ⟨fun ⟨g, hx, hn⟩ => ⟨⟨g, hx⟩, hn⟩, fun ⟨⟨g, hx⟩, hn⟩ => ⟨g, hx, hn⟩⟩

theorem leaveAll_keeps (m : Model) (gone : List ViewId) :
    (m.leaveAll gone).typeName = m.typeName ∧ (m.leaveAll gone).comm = m.comm ∧
      (m.leaveAll gone).attributes = m.attributes ∧ (m.leaveAll gone).css = m.css ∧
      (m.leaveAll gone).pending = m.pending ∧ (m.leaveAll gone).throttle = m.throttle ∧
      (m.leaveAll gone).buffer = m.buffer ∧ (m.leaveAll gone).updating = m.updating := by
  induction gone generalizing m with
  | nil => exact ⟨rfl, rfl, rfl, rfl, rfl, rfl, rfl, rfl⟩
  | cons id rest ih =>
    obtain ⟨h1, h2, h3, h4, h5, h6, h7, h8⟩ := m.leave_keeps id
    obtain ⟨r1, r2, r3, r4, r5, r6, r7, r8⟩ := ih (m.leave id)
    exact ⟨r1.trans h1, r2.trans h2, r3.trans h3, r4.trans h4, r5.trans h5, r6.trans h6,
      r7.trans h7, r8.trans h8⟩

end WidgetSync.Model
