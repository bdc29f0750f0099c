import WidgetSync.Proofs.Manager.Consistent

/-! What keeps a manager consistent: opening a comm, placing a new view, and taking down a walk that leaves
nothing behind below it. -/
namespace WidgetSync.Manager

variable {m : Manager}

/-! ### Opening -/

/-- A comm opens for a known kind of model, unless it is open; the model is new. -/
theorem openComm_ok {opened : Manager} {request : CommOpen} (h : m.openComm request = .ok opened) :
    m.models.get? request.comm = none ∧ ∃ kind : ModelKind,
      opened = m.setModel request.comm
        ((kind.model (m.hub.comm request.comm)).withThrottle m.throttle) := by
  rw [openComm] at h
  split at h
  · exact absurd h (by simp)
  · split at h
    · exact absurd h (by simp)
    · next kind _ =>
      split at h
      · exact absurd h (by simp)
      · next hc =>
        rw [Bool.not_eq_true, OrdMap.contains_eq_false_iff] at hc
        exact ⟨hc, kind, (Except.ok.inj h).symm⟩

theorem Consistent.openComm (h : m.Consistent) {opened : Manager} {request : CommOpen}
    (ho : m.openComm request = .ok opened) : opened.Consistent := by
  obtain ⟨hdead, kind, rfl⟩ := openComm_ok ho
  -- The new model has no views, and nobody names it yet.
  let model := (kind.model (m.hub.comm request.comm)).withThrottle m.throttle
  have hviews : model.views = [] := rfl
  have hget {comm : CommId} {found : Model}
      (hm : (m.setModel request.comm model).models.get? comm = some found) :
      found = model ∧ comm = request.comm ∨ m.models.get? comm = some found := by
    rw [setModel, OrdMap.get?_insert_eq] at hm
    split at hm
    · next he => exact .inl ⟨(Option.some.inj hm).symm, he.symm⟩
    · exact .inr hm
  exact
    { forest := h.forest
      hosted := h.hosted
      registered := by
        intro id slot hs
        obtain ⟨found, hm, hid⟩ := h.registered id slot hs
        refine ⟨found, ?_, hid⟩
        have hne : request.comm ≠ slot.view.model := OrdMap.ne_of_get? hdead hm
        rw [setModel, OrdMap.get?_insert_eq, if_neg hne]
        exact hm
      known := by
        intro comm found id hm hid
        rcases hget hm with ⟨rfl, _⟩ | hm
        · rw [hviews] at hid
          exact absurd hid List.not_mem_nil
        · exact h.known comm found id hm hid
      tidy := by
        intro comm found hm
        rcases hget hm with ⟨rfl, _⟩ | hm
        · refine ⟨List.nodup_nil, List.nodup_nil, fun _ => Iff.rfl, fun group hg => ?_⟩
          have hnone : model.groups.get? group = none := rfl
          rw [hnone] at hg
          exact absurd hg (by simp)
        · exact h.tidy comm found hm
      below_next := h.below_next
      opened := by
        intro comm found hm
        rcases hget hm with ⟨rfl, rfl⟩ | hm
        · have hr := h.reader
          simp only [model, ModelKind.model, Model.withThrottle, Model.withDefaults, Model.new,
            CommHub.comm, Comm.opened, hr]
        · exact h.opened comm found hm
      reader := h.reader }

/-! ### Placing -/

/-- Shows a view where it was placed. -/
def attach (m : Manager) (id : ViewId) : Placement → Manager
  | .area group =>
    { m with notebook := m.notebook.modifyArea group fun area => (area.append id).reveal }
  | .host host => m.modifyView host (·.addChild id)

/-- Adds a view and shows it. -/
def place (m : Manager) (kind : ViewKind) (comm : CommId) (group : GroupKey)
    (placement : Placement) : Manager :=
  (m.createView kind comm group placement).1.attach ⟨m.nextView⟩ placement

theorem createInArea_eq (m : Manager) (kind : ViewKind) (comm : CommId) (group : GroupKey) :
    m.createInArea kind comm group = (m.place kind comm group (.area group), ⟨m.nextView⟩) := rfl

theorem createInHosts_cons (m : Manager) (kind : ViewKind) (comm : CommId) (group : GroupKey)
    (host : ViewId) (rest : List ViewId) :
    m.createInHosts kind comm group (host :: rest) =
      let more := (m.place kind comm group (.host host)).createInHosts kind comm group rest
      (more.1, ⟨m.nextView⟩ :: more.2) := rfl

theorem place_models (m : Manager) (kind : ViewKind) (comm : CommId) (group : GroupKey)
    (placement : Placement) :
    (m.place kind comm group placement).models =
      m.models.modify comm (·.enroll group ⟨m.nextView⟩) := by
  cases placement <;> rfl

theorem place_nextView (m : Manager) (kind : ViewKind) (comm : CommId) (group : GroupKey)
    (placement : Placement) : (m.place kind comm group placement).nextView = m.nextView + 1 := by
  cases placement <;> rfl

theorem place_throttle (m : Manager) (kind : ViewKind) (comm : CommId) (group : GroupKey)
    (placement : Placement) : (m.place kind comm group placement).throttle = m.throttle := by
  cases placement <;> rfl

theorem place_hub (m : Manager) (kind : ViewKind) (comm : CommId) (group : GroupKey)
    (placement : Placement) : (m.place kind comm group placement).hub = m.hub := by
  cases placement <;> rfl

/-- The new view as it is placed, with nothing below it. -/
def newSlot (kind : ViewKind) (comm : CommId) (group : GroupKey) (placement : Placement) : Slot :=
  ⟨View.new kind comm group, placement⟩

/-- A slot after a view was placed: the host shows the view, and all others are as they were. -/
def adopt (slot : Slot) (self : ViewId) (placement : Placement) (id : ViewId) : Slot :=
  if placement = .host self then { slot with view := slot.view.addChild id } else slot

theorem adopt_keeps (slot : Slot) (self : ViewId) (placement : Placement) (id : ViewId) :
    (adopt slot self placement id).view.model = slot.view.model ∧
      (adopt slot self placement id).view.group = slot.view.group ∧
      (adopt slot self placement id).placement = slot.placement := by
  rw [adopt]
  split <;> exact ⟨rfl, rfl, rfl⟩

theorem adopt_children (slot : Slot) (self : ViewId) (placement : Placement) (id : ViewId) :
    (adopt slot self placement id).view.children =
      slot.view.children ++ if placement = .host self then [id] else [] := by
  rw [adopt]
  split
  · rfl
  · exact (List.append_nil _).symm

section Place

variable (kind : ViewKind) (comm : CommId) (group : GroupKey) {placement : Placement}
  (hn : placement ≠ .host ⟨m.nextView⟩)
include hn

theorem get?_place (x : ViewId) :
    (m.place kind comm group placement).views.get? x =
      if ⟨m.nextView⟩ = x then some (newSlot kind comm group placement)
      else (m.views.get? x).map fun slot => adopt slot x placement ⟨m.nextView⟩ := by
  cases placement with
  | area g =>
    simp only [place, createView, attach, OrdMap.get?_insert_eq, newSlot, adopt, reduceCtorEq,
      if_false, Option.map_id_fun', id_eq]
  | host host =>
    -- The view is added before its host is told, and they are not the same view.
    have hne : host ≠ ⟨m.nextView⟩ := fun he => hn (congrArg Placement.host he)
    simp only [place, createView, attach, modifyView, OrdMap.get?_modify, OrdMap.get?_insert_eq,
      newSlot, Placement.host.injEq, adopt]
    by_cases hx : (⟨m.nextView⟩ : ViewId) = x
    · subst hx
      rw [if_neg hne, if_pos rfl, if_pos rfl]
    · simp only [if_neg hx]
      by_cases hh : host = x
      · simp only [if_pos hh]
      · simp only [if_neg hh, Option.map_id_fun', id_eq]

/-- A live view is the new one or one of before. -/
theorem live_of_place {x : ViewId} {slot' : Slot}
    (hs : (m.place kind comm group placement).views.get? x = some slot') :
    (x = ⟨m.nextView⟩ ∧ slot' = newSlot kind comm group placement) ∨
      ∃ slot, m.views.get? x = some slot ∧ slot' = adopt slot x placement ⟨m.nextView⟩ := by
  rw [get?_place kind comm group hn] at hs
  split at hs
  · next hx => exact .inl ⟨hx.symm, (Option.some.inj hs).symm⟩
  · obtain ⟨slot, hs, he⟩ := Option.map_eq_some_iff.mp hs
    exact .inr ⟨slot, hs, he.symm⟩

variable (hdead : m.views.get? ⟨m.nextView⟩ = none)
include hdead

theorem live_place {x : ViewId} {slot : Slot} (hs : m.views.get? x = some slot) :
    (m.place kind comm group placement).views.get? x =
      some (adopt slot x placement ⟨m.nextView⟩) := by
  have hx : (⟨m.nextView⟩ : ViewId) ≠ x := OrdMap.ne_of_get? hdead hs
  rw [get?_place kind comm group hn, if_neg hx, hs, Option.map_some]

theorem hosts_place (hp : ∀ host, placement = .host host → ∃ slot, m.views.get? host = some slot)
    (host child : ViewId) :
    Arena.Hosts (m.place kind comm group placement).views host child ↔
      Arena.Hosts m.views host child ∨ (placement = .host host ∧ child = ⟨m.nextView⟩) := by
  constructor
  · rintro ⟨slot', hs', hc⟩
    rcases live_of_place kind comm group hn hs' with ⟨_, rfl⟩ | ⟨slot, hs, rfl⟩
    · exact absurd hc List.not_mem_nil
    · rw [adopt_children, List.mem_append] at hc
      rcases hc with hc | hc
      · exact .inl ⟨slot, hs, hc⟩
      · split at hc
        · next hhost => exact .inr ⟨hhost, List.mem_singleton.mp hc⟩
        · exact absurd hc List.not_mem_nil
  · rintro (⟨slot, hs, hc⟩ | ⟨hhost, rfl⟩)
    · refine ⟨_, live_place kind comm group hn hdead hs, ?_⟩
      rw [adopt_children]
      exact List.mem_append_left _ hc
    · obtain ⟨slot, hs⟩ := hp host hhost
      refine ⟨_, live_place kind comm group hn hdead hs, ?_⟩
      rw [adopt_children, if_pos hhost]
      exact List.mem_append_right _ (List.mem_singleton_self _)

end Place

/-- The model of the new view lists it, and every other model is as before. -/
theorem get?_place_models (m : Manager) (kind : ViewKind) (comm : CommId) (group : GroupKey)
    (placement : Placement) (c : CommId) :
    (m.place kind comm group placement).models.get? c =
      if comm = c then (m.models.get? c).map (·.enroll group ⟨m.nextView⟩) else m.models.get? c := by
  rw [place_models, OrdMap.get?_modify]

theorem model_of_place {kind : ViewKind} {comm c : CommId} {group : GroupKey} {placement : Placement}
    {found' : Model} (hf : (m.place kind comm group placement).models.get? c = some found') :
    ∃ found, m.models.get? c = some found ∧
      found' = if comm = c then found.enroll group ⟨m.nextView⟩ else found := by
  rw [get?_place_models] at hf
  split at hf
  · next hc =>
    obtain ⟨found, hfound, he⟩ := Option.map_eq_some_iff.mp hf
    exact ⟨found, hfound, by rw [if_pos hc, he]⟩
  · next hc => exact ⟨found', hf, by rw [if_neg hc]⟩

/-- A live host is not the view that comes next. -/
theorem Consistent.next_not_host (h : m.Consistent) {placement : Placement}
    (hp : ∀ host, placement = .host host → ∃ slot, m.views.get? host = some slot) :
    placement ≠ .host ⟨m.nextView⟩ := by
  intro he
  obtain ⟨slot, hs⟩ := hp _ he
  rw [h.next_dead] at hs
  contradiction

section Placed

variable (h : m.Consistent) {comm : CommId} {placement : Placement}
  (hp : ∀ host, placement = .host host → ∃ slot, m.views.get? host = some slot)
  (kind : ViewKind) (group : GroupKey)
include h hp

theorem Consistent.place_forest : Arena.Forest (m.place kind comm group placement).views := by
  have hn := h.next_not_host hp
  have hhosts := hosts_place kind comm group hn h.next_dead hp
  refine ⟨fun host child hc => ?_, fun host slot' hs' => ?_, fun host child hc => ?_⟩
  · rcases (hhosts host child).mp hc with hc | ⟨rfl, rfl⟩
    · obtain ⟨slot, hs, hpl⟩ := h.forest.placed host child hc
      exact ⟨_, live_place kind comm group hn h.next_dead hs, (adopt_keeps _ _ _ _).2.2.trans hpl⟩
    · refine ⟨newSlot kind comm group (.host host), ?_, rfl⟩
      rw [get?_place kind comm group hn, if_pos rfl]
  · rcases live_of_place kind comm group hn hs' with ⟨_, rfl⟩ | ⟨slot, hs, rfl⟩
    · exact List.nodup_nil
    · rw [adopt_children]
      have hnodup := h.forest.once host slot hs
      split
      · -- The new view is not yet among the children, for those are live.
        refine List.nodup_append.mpr ⟨hnodup, List.nodup_singleton _, fun c hc d hd => ?_⟩
        rintro rfl
        obtain ⟨cslot, hcs, _⟩ := h.forest.placed host c ⟨slot, hs, hc⟩
        rw [List.mem_singleton.mp hd, h.next_dead] at hcs
        contradiction
      · rw [List.append_nil]
        exact hnodup
  · rcases (hhosts host child).mp hc with hc | ⟨rfl, rfl⟩
    · exact h.forest.after host child hc
    · -- The host is live, and so its index is below the one given out now.
      obtain ⟨slot, hs⟩ := hp host rfl
      exact h.below_next host slot hs

theorem Consistent.place_registered {model : Model} (hm : m.models.get? comm = some model) {id : ViewId}
    {slot' : Slot} (hs' : (m.place kind comm group placement).views.get? id = some slot') :
    ∃ found, (m.place kind comm group placement).models.get? slot'.view.model = some found ∧
      id ∈ found.viewsIn slot'.view.group := by
  have hn := h.next_not_host hp
  rcases live_of_place kind comm group hn hs' with ⟨rfl, rfl⟩ | ⟨slot, hs, rfl⟩
  · have hcomm : (newSlot kind comm group placement).view.model = comm := rfl
    have hgroup : (newSlot kind comm group placement).view.group = group := rfl
    rw [hcomm, hgroup, get?_place_models, if_pos rfl, hm, Option.map_some]
    refine ⟨_, rfl, ?_⟩
    rw [Model.viewsIn_enroll, if_pos rfl]
    exact List.mem_append_right _ (List.mem_singleton_self _)
  · obtain ⟨found, hfound, hid⟩ := h.registered id slot hs
    rw [(adopt_keeps _ _ _ _).1, (adopt_keeps _ _ _ _).2.1, get?_place_models, hfound]
    split
    · refine ⟨_, rfl, ?_⟩
      rw [Model.viewsIn_enroll]
      split
      · exact List.mem_append_left _ hid
      · exact hid
    · exact ⟨found, rfl, hid⟩

theorem Consistent.place_known {c : CommId} {found' : Model} {id : ViewId}
    (hf : (m.place kind comm group placement).models.get? c = some found') (hid : id ∈ found'.views) :
    ∃ slot', (m.place kind comm group placement).views.get? id = some slot' ∧ slot'.view.model = c := by
  have hn := h.next_not_host hp
  obtain ⟨found, hfound, rfl⟩ := model_of_place hf
  have hlisted (hid : id ∈ found.views) : ∃ slot',
      (m.place kind comm group placement).views.get? id = some slot' ∧ slot'.view.model = c := by
    obtain ⟨slot, hs, ho⟩ := h.known c found id hfound hid
    exact ⟨_, live_place kind comm group hn h.next_dead hs, (adopt_keeps _ _ _ _).1.trans ho⟩
  split at hid
  · next hc =>
    rcases Model.mem_views_enroll.mp hid with hid | rfl
    · exact hlisted hid
    · refine ⟨newSlot kind comm group placement, ?_, hc⟩
      rw [get?_place kind comm group hn, if_pos rfl]
  · exact hlisted hid

/-- To place a view, in an area or under a live host, keeps a manager consistent. -/
theorem Consistent.place {model : Model} (hm : m.models.get? comm = some model) :
    (m.place kind comm group placement).Consistent := by
  have hn := h.next_not_host hp
  exact
    { forest := h.place_forest hp kind group
      hosted := by
        intro id slot' host hs' hpl
        apply (hosts_place kind comm group hn h.next_dead hp host id).mpr
        rcases live_of_place kind comm group hn hs' with ⟨rfl, rfl⟩ | ⟨slot, hs, rfl⟩
        · exact .inr ⟨hpl, rfl⟩
        · rw [(adopt_keeps _ _ _ _).2.2] at hpl
          exact .inl (h.hosted id slot host hs hpl)
      registered := fun _ _ => h.place_registered hp kind group hm
      known := fun _ _ _ => h.place_known hp kind group
      tidy := by
        intro c found' hf
        obtain ⟨found, hfound, rfl⟩ := model_of_place hf
        split
        · exact (h.tidy c found hfound).enroll (h.not_listed_of_dead h.next_dead hfound) group
        · exact h.tidy c found hfound
      below_next := by
        intro id slot' hs'
        rw [place_nextView]
        rcases live_of_place kind comm group hn hs' with ⟨rfl, _⟩ | ⟨slot, hs, _⟩
        · exact Nat.lt_succ_self _
        · exact Nat.lt_succ_of_lt (h.below_next id slot hs)
      opened := by
        intro c found' hf
        obtain ⟨found, hfound, rfl⟩ := model_of_place hf
        split
        · rw [Model.enroll, Model.subscribe_eq]
          exact h.opened c found hfound
        · exact h.opened c found hfound
      reader := by
        rw [place_hub]
        exact h.reader }

end Placed

/-! ### Taking down -/

section TakeDown

/-- Models of which none went ahead of the walk, unless all its views are on the walk. -/
def Spared (m : Manager) (walk : List ViewId) (models : Models) : Prop :=
  ∀ comm, models.get? comm = m.models.get? comm ∨
    (models.get? comm = none ∧ ∀ x, Arena.owner m.views x = some comm → x ∈ walk)

theorem spared_self (m : Manager) (walk : List ViewId) : Spared m walk m.models := fun _ => .inl rfl

/-- A model may go ahead of a walk over all its views. -/
theorem Consistent.spared_erase (h : m.Consistent) {comm : CommId} {model : Model}
    (hm : m.models.get? comm = some model) {walk : List ViewId} (hw : model.views ⊆ walk) :
    Spared m walk (m.models.erase comm) := by
  intro c
  rw [OrdMap.get?_erase]
  by_cases hc : comm = c
  · subst hc
    rw [if_pos rfl]
    exact .inr ⟨rfl, fun x hx => hw ((h.owns hm x).mp hx)⟩
  · rw [if_neg hc]
    exact .inl rfl

variable (h : m.Consistent) {walk : List ViewId} {models : Models} (hsp : Spared m walk models)
include h hsp

theorem Consistent.attended_of_spared : Models.Attended m.views.owner models := by
  have hlive {c : CommId} {model : Model} (hm : models.get? c = some model) :
      m.models.get? c = some model := by
    rcases hsp c with he | ⟨he, _⟩
    · exact he.symm.trans hm
    · rw [he] at hm
      exact absurd hm (by simp)
  exact ⟨fun c model hm => h.tidy c model (hlive hm), fun c model hm => h.opened c model (hlive hm),
    fun c model hm => h.owns (hlive hm)⟩

variable (hn : walk.Nodup)
include hn

/-- A model that outlasts a walk was live before, has a view off the walk or never had one, and has lost its
views on the walk. -/
theorem Consistent.model_of_departures {c : CommId} {model' : Model}
    (hm : (Models.departures m.views.owner models walk).1.get? c = some model') :
    ∃ model, m.models.get? c = some model ∧ model' = model.leaveAll (Models.ownOn m.views.owner c walk) := by
  have ha := h.attended_of_spared hsp
  cases hc : models.get? c with
  | none =>
    rw [Models.get?_departures_of_dead hc] at hm
    exact absurd hm (by simp)
  | some model =>
    rw [Models.get?_departures hc (ha.tidy c model hc) hn fun x _ => ha.owns c model hc x] at hm
    split at hm
    · exact absurd hm (by simp)
    · rcases hsp c with he | ⟨he, _⟩
      · exact ⟨model, he.symm.trans hc, (Option.some.inj hm).symm⟩
      · rw [he] at hc
        exact absurd hc (by simp)

variable (hclosed : m.views.Closed walk)
include hclosed

/-- Taking down a walk keeps a manager consistent if the walk leaves nothing hanging below it. -/
theorem Consistent.takeDown : (takeDown { m with models } walk).1.Consistent := by
  have ha := h.attended_of_spared hsp
  have hlive {id : ViewId} {slot' : Slot} (hs : (m.views.without walk).get? id = some slot') :
      id ∉ walk ∧ ∃ slot, m.views.get? id = some slot ∧ slot.without walk = slot' :=
    Arena.get?_without_eq_some.mp hs
  exact
    { forest := h.forest.without walk
      hosted := by
        intro id slot' host hs' hp
        obtain ⟨hid, slot, hs, rfl⟩ := hlive hs'
        have hhost : m.views.Hosts host id := h.hosted id slot host hs hp
        refine Arena.hosts_without.mpr ⟨hhost, fun hg => hid ?_, hid⟩
        -- A host on the walk takes the views along that it shows.
        obtain ⟨hslot, hhs, hc⟩ := hhost
        exact hclosed host hg id (h.forest.mem_subtree_of_below (.single ⟨hslot, hhs, hc⟩) hhs)
      registered := by
        intro id slot' hs'
        obtain ⟨hid, slot, hs, rfl⟩ := hlive hs'
        obtain ⟨model, hm, hreg⟩ := h.registered id slot hs
        have hlisted : id ∈ model.views := Model.mem_views.mpr ⟨_, hreg⟩
        -- The model was not one to go ahead, and the walk does not exhaust it: this view is off the walk.
        have hmodel : models.get? slot.view.model = some model := by
          rcases hsp slot.view.model with he | ⟨_, hall⟩
          · exact he.trans hm
          · exact absurd (hall id ((h.owns hm id).mpr hlisted)) hid
        have hgone : ¬(model.views ≠ [] ∧ model.views ⊆ walk) := fun hg => hid (hg.2 hlisted)
        have ht := h.tidy _ model hm
        refine ⟨model.leaveAll (Models.ownOn m.views.owner slot.view.model walk), ?_, ?_⟩
        · have hget := Models.get?_departures hmodel ht hn fun x _ => h.owns hm x
          rw [if_neg hgone] at hget
          exact hget
        · have hview : (slot.without walk).view.group = slot.view.group := rfl
          rw [hview, Model.viewsIn_leaveAll ht]
          refine List.mem_filter.mpr ⟨hreg, decide_eq_true fun hg => hid ?_⟩
          exact (Models.mem_ownOn.mp hg).1
      known := by
        intro c model' id hm hid
        obtain ⟨model, hc, rfl⟩ := h.model_of_departures hsp hn hm
        obtain ⟨hlisted, hoff⟩ := (Model.mem_views_leaveAll (h.tidy c model hc)).mp hid
        obtain ⟨slot, hs, ho⟩ := h.known c model id hc hlisted
        have hid : id ∉ walk := fun hg => hoff (Models.mem_ownOn.mpr ⟨hg, (h.owns hc id).mpr hlisted⟩)
        exact ⟨slot.without walk, Arena.get?_without_eq_some.mpr ⟨hid, slot, hs, rfl⟩, ho⟩
      tidy := by
        intro c model' hm
        obtain ⟨model, hc, rfl⟩ := h.model_of_departures hsp hn hm
        exact (h.tidy c model hc).leaveAll _
      below_next := by
        intro id slot' hs'
        obtain ⟨_, slot, hs, _⟩ := hlive hs'
        exact h.below_next id slot hs
      opened := by
        intro c model' hm
        obtain ⟨model, hc, rfl⟩ := h.model_of_departures hsp hn hm
        exact (model.leaveAll_keeps _).2.1.trans (h.opened c model hc)
      reader := h.reader }

end TakeDown

theorem Consistent.removeView (h : m.Consistent) (id : ViewId) : (m.removeView id).1.Consistent := by
  rw [removeView_eq h.forest]
  exact h.takeDown (spared_self m _) (h.forest.subtree_nodup id) (h.forest.closed_subtree id)

/-- A live model's views are all live, and so on the walk that takes them down. -/
theorem Consistent.views_subset_sweep (h : m.Consistent) {comm : CommId} {model : Model}
    (hm : m.models.get? comm = some model) : model.views ⊆ m.views.sweep model.views := by
  intro x hx
  obtain ⟨slot, hs, _⟩ := h.known comm model x hm hx
  exact h.forest.mem_sweep.mpr ⟨x, hx, h.forest.mem_subtree_self hs⟩

theorem Consistent.closeComm (h : m.Consistent) (comm : CommId) : (m.closeComm comm).1.Consistent := by
  cases hm : m.models.get? comm with
  | none =>
    rw [closeComm_of_dead hm]
    exact h
  | some model =>
    have hall := h.views_subset_sweep hm
    rw [closeComm_of_live h.forest hm]
    exact h.takeDown (h.spared_erase hm hall) (h.forest.sweep_nodup _) (h.forest.closed_sweep _)

end WidgetSync.Manager
