import WidgetSync.Proofs.Manager.Effect

/-! Where a display puts its views: one into every host, or else one into the area of the group. The hosts are found
before the first view is placed, so that a view may come into another view of its own model. -/
namespace WidgetSync

namespace Model

variable {model : Model} {group : GroupKey}

theorem enroll_eq {id : ViewId} (hid : id ∉ model.subscribers) : model.enroll group id =
    { model with
        groups := model.groups.insert group (model.viewsIn group ++ [id])
        subscribers := model.subscribers ++ [id] } := by
  have hsubscribed : id ∉ (model.addView group id).subscribers := hid
  rw [enroll, subscribe_eq, if_neg hsubscribed]
  rfl

/-- New views come behind the old ones, as registered and as subscribed. -/
theorem enrollAll_eq {ids : List ViewId} (hne : ids ≠ []) (hn : ids.Nodup)
    (hfresh : ∀ id ∈ ids, id ∉ model.subscribers) : model.enrollAll group ids =
      { model with
          groups := model.groups.insert group (model.viewsIn group ++ ids)
          subscribers := model.subscribers ++ ids } := by
  induction ids generalizing model with
  | nil => contradiction
  | cons id rest ih =>
    obtain ⟨hid, hrest⟩ := List.nodup_cons.mp hn
    have hfirst : model.enroll group id = _ := enroll_eq (hfresh id List.mem_cons_self)
    have hlisted : (model.enroll group id).viewsIn group = model.viewsIn group ++ [id] := by
      rw [viewsIn_enroll, if_pos rfl]
    by_cases hlast : rest = []
    · rw [hlast]
      exact hfirst
    · have hlater : ∀ x ∈ rest, x ∉ (model.enroll group id).subscribers := by
        intro x hx hmem
        rw [subscribers_enroll (hfresh id List.mem_cons_self), List.mem_append, List.mem_singleton] at hmem
        rcases hmem with hmem | rfl
        · exact hfresh x (List.mem_cons_of_mem id hx) hmem
        · exact hid hx
      have hall := ih hlast hrest hlater
      rw [hlisted, hfirst] at hall
      simp only [OrdMap.insert_insert, List.append_assoc, List.singleton_append] at hall
      rw [← hall, ← hfirst]
      rfl

end Model

/-- What a view draws is a matter of the attributes and the styles. -/
theorem View.refresh_congr {model model' : Model} (ha : model'.attributes = model.attributes)
    (hc : model'.css = model.css) (v : View) : v.refresh model' = v.refresh model := by
  simp only [refresh, follow, ha, hc]

namespace Manager

variable {m m' : Manager} {made : List (CommId × Attributes)} {frames : List Frame}

/-! ### The order of views -/

/-- Every group of a model lists its views in the order in which they were displayed. -/
def InOrder (m : Manager) : Prop :=
  ∀ comm model, m.models.get? comm = some model → ∀ group,
    (model.viewsIn group).Pairwise (·.index < ·.index)

theorem InOrder.of_alike (ho : m.InOrder) (ha : Alike m m') : m'.InOrder := by
  intro comm model' hm' group
  obtain ⟨model, hm, _, hg, _⟩ := ha.model hm'
  rw [Model.viewsIn, hg]
  exact ho comm model hm group

theorem Consistent.inOrder_place (h : m.Consistent) (ho : m.InOrder) (kind : ViewKind) (comm : CommId)
    (group : GroupKey) (placement : Placement) : (m.place kind comm group placement).InOrder := by
  intro c found' hf g
  obtain ⟨found, hfound, rfl⟩ := model_of_place hf
  have hold := ho c found hfound g
  -- The new view has the highest index, and comes last.
  have hnew : (found.viewsIn g ++ [(⟨m.nextView⟩ : ViewId)]).Pairwise (·.index < ·.index) := by
    refine List.pairwise_append.mpr ⟨hold, List.pairwise_singleton _ _, fun x hx y hy => ?_⟩
    obtain ⟨slot, hs, _⟩ := h.known c found x hfound (Model.mem_views.mpr ⟨g, hx⟩)
    rw [List.mem_singleton.mp hy]
    exact h.below_next x slot hs
  split
  · rw [Model.viewsIn_enroll]
    split
    · exact hnew
    · exact hold
  · exact hold

theorem Consistent.inOrder_takeDown (h : m.Consistent) (ho : m.InOrder) {walk : List ViewId} {models : Models}
    (hsp : Spared m walk models) (hn : walk.Nodup) : (Manager.takeDown { m with models } walk).1.InOrder := by
  intro c model' hm' g
  obtain ⟨model, hm, rfl⟩ := h.model_of_departures hsp hn hm'
  rw [Model.viewsIn_leaveAll (h.tidy c model hm)]
  exact (ho c model hm g).filter _

theorem Consistent.inOrder_move (h : m.Consistent) (ho : m.InOrder) (mv : Move m m' made frames) : m'.InOrder := by
  cases mv with
  | around ha => exact ho.of_alike ha.alike
  | ask hm ops hops => exact ho.of_alike (alike_setModel hm (run_outline hops))
  | draw f hf => exact ho.of_alike (alike_draw hf)
  | place hm hp kind group => exact h.inOrder_place ho kind _ group _
  | remove id =>
    rw [removeView_eq h.forest]
    exact h.inOrder_takeDown ho (spared_self m _) (h.forest.subtree_nodup id)
  | close comm =>
    cases hm : m.models.get? comm with
    | none =>
      rw [closeComm_of_dead hm]
      exact ho
    | some model =>
      rw [closeComm_of_live h.forest hm]
      exact h.inOrder_takeDown ho (h.spared_erase hm (h.views_subset_sweep hm)) (h.forest.sweep_nodup _)

theorem Consistent.inOrder_moves (h : m.Consistent) (ho : m.InOrder) (mv : Moves m m' made frames) : m'.InOrder := by
  induction mv with
  | refl => exact ho
  | head first _ ih => exact ih (h.move first) (h.inOrder_move ho first)

theorem Consistent.inOrder_step (h : m.Consistent) (ho : m.InOrder) (op : Operation) :
    (m.step op).manager.InOrder := by
  rcases step_moves h op with ⟨request, opened, _, hopen, he, _⟩ |
    ⟨cell, message, executed, _, hx, he, _⟩ | hmoves
  · obtain ⟨_, kind, rfl⟩ := openComm_ok hopen
    rw [he]
    intro comm model hm group
    rw [setModel, OrdMap.get?_insert_eq] at hm
    split at hm
    · obtain rfl := Option.some.inj hm
      exact List.Pairwise.nil
    · exact ho comm model hm group
  · rw [he]
    exact ho.of_alike (execute_alike hx)
  · exact h.inOrder_moves ho hmoves

theorem Consistent.inOrder_run (h : m.Consistent) (ho : m.InOrder) (ops : List Operation) : (m.run ops).1.InOrder := by
  induction ops generalizing m with
  | nil => exact ho
  | cons op rest ih => exact ih (h.step op) (h.inOrder_step ho op)

theorem new_inOrder (notebook : Notebook) (throttle : Nat) : (new notebook throttle).InOrder :=
  fun _ _ hm => nomatch hm

/-! ### Hosts -/

/-- The hosts are the containers among the parent's views that were displayed in the group. -/
theorem Consistent.mem_hosts (h : m.Consistent) {parent : Option CommId} {group : GroupKey} {id : ViewId} :
    id ∈ m.hosts parent group ↔ ∃ slot, m.views.get? id = some slot ∧ parent = some slot.view.model ∧
      slot.view.group = group ∧ slot.view.kind = .container := by
  rw [hosts, List.mem_filter, isHost]
  constructor
  · rintro ⟨hid, hhost⟩
    cases hp : parent with
    | none =>
      rw [hp] at hid
      exact absurd hid List.not_mem_nil
    | some p =>
      cases hm : m.models.get? p with
      | none =>
        simp only [hp, Option.bind_eq_bind, Option.bind_some, hm, Option.elim_none, List.not_mem_nil] at hid
      | some model =>
        simp only [hp, Option.bind_eq_bind, Option.bind_some, hm, Option.elim_some] at hid
        -- The view is registered under its own group, and under no other.
        obtain ⟨slot, hs, hown⟩ := h.known p model id hm (Model.mem_views.mpr ⟨group, hid⟩)
        obtain ⟨found, hfound, hreg⟩ := h.registered id slot hs
        rw [hown, hm] at hfound
        obtain rfl := Option.some.inj hfound
        have hgroup := (Model.views_nodup_iff.mp (h.tidy p model hm).views_nodup).2 _ _ id hreg hid
        refine ⟨slot, hs, by rw [hown], hgroup, ?_⟩
        simpa [hs, View.isHost] using hhost
  · rintro ⟨slot, hs, rfl, rfl, hkind⟩
    obtain ⟨model, hm, hreg⟩ := h.registered id slot hs
    refine ⟨?_, by simpa [hs, View.isHost] using hkind⟩
    simpa only [Option.bind_eq_bind, Option.bind_some, hm, Option.elim_some] using hreg

theorem InOrder.hosts (ho : m.InOrder) (parent : Option CommId) (group : GroupKey) :
    (m.hosts parent group).Pairwise (·.index < ·.index) := by
  refine List.Pairwise.filter _ ?_
  cases hm : parent >>= m.models.get? with
  | none => exact List.Pairwise.nil
  | some model =>
    obtain ⟨p, -, hp⟩ := Option.bind_eq_some_iff.mp hm
    exact ho p model hp group

/-! ### Placing views one after another -/

/-- The next ids. -/
def nextViews (m : Manager) (count : Nat) : List ViewId := (List.range' m.nextView count).map ViewId.mk

theorem nextViews_succ (m : Manager) (kind : ViewKind) (comm : CommId) (group : GroupKey) (placement : Placement)
    (count : Nat) :
    m.nextViews (count + 1) = ⟨m.nextView⟩ :: (m.place kind comm group placement).nextViews count := by
  rw [nextViews, nextViews, place_nextView, List.range'_succ, List.map_cons]

theorem length_nextViews (m : Manager) (count : Nat) : (m.nextViews count).length = count := by
  rw [nextViews, List.length_map, List.length_range']

theorem getElem?_nextViews (m : Manager) {count i : Nat} (hi : i < count) :
    (m.nextViews count)[i]? = some ⟨m.nextView + i⟩ := by
  rw [nextViews, List.getElem?_map, List.getElem?_range' hi, Nat.one_mul]
  rfl

theorem mem_nextViews {count : Nat} {id : ViewId} :
    id ∈ m.nextViews count ↔ m.nextView ≤ id.index ∧ id.index < m.nextView + count := by
  rw [nextViews, List.mem_map]
  constructor
  · rintro ⟨index, hi, rfl⟩
    exact List.mem_range'_1.mp hi
  · intro hi
    exact ⟨id.index, List.mem_range'_1.mpr hi, rfl⟩

theorem nodup_nextViews (m : Manager) (count : Nat) : (m.nextViews count).Nodup :=
  List.Nodup.map (fun _ _ he => congrArg ViewId.index he) List.nodup_range'

theorem Consistent.not_mem_nextViews (h : m.Consistent) {id : ViewId} {slot : Slot} (hs : m.views.get? id = some slot)
    {count : Nat} : id ∉ m.nextViews count := fun hid =>
  Nat.lt_irrefl _ (Nat.lt_of_lt_of_le (h.below_next id slot hs) (mem_nextViews.mp hid).1)

/-- Indices that were not given out are nobody's. -/
theorem Consistent.dead_of_le (h : m.Consistent) {id : ViewId} (hle : m.nextView ≤ id.index) :
    m.views.get? id = none := by
  cases hs : m.views.get? id with
  | none => rfl
  | some slot => exact absurd (h.below_next id slot hs) (Nat.not_lt.mpr hle)

/-- Places a view at each of the places, in their order. -/
def placeAll (m : Manager) (kind : ViewKind) (comm : CommId) (group : GroupKey) : List Placement → Manager
  | [] => m
  | placement :: rest => (m.place kind comm group placement).placeAll kind comm group rest

theorem createInHosts_eq (m : Manager) (kind : ViewKind) (comm : CommId) (group : GroupKey) (hosts : List ViewId) :
    m.createInHosts kind comm group hosts =
      (m.placeAll kind comm group (hosts.map .host), m.nextViews hosts.length) := by
  induction hosts generalizing m with
  | nil => rfl
  | cons host rest ih =>
    rw [createInHosts_cons, ih, List.length_cons, nextViews_succ m kind comm group (.host host)]
    rfl

/-- Where the views of a display go. -/
def places (hosts : List ViewId) (group : GroupKey) : List Placement :=
  if hosts = [] then [.area group] else hosts.map .host

section PlaceAll

variable (kind : ViewKind) (comm : CommId) (group : GroupKey)

theorem placeAll_nextView (m : Manager) (ps : List Placement) :
    (m.placeAll kind comm group ps).nextView = m.nextView + ps.length := by
  induction ps generalizing m with
  | nil => rfl
  | cons p rest ih =>
    rw [placeAll, ih, place_nextView, List.length_cons]
    omega

theorem get?_placeAll_models (m : Manager) (ps : List Placement) (c : CommId) :
    (m.placeAll kind comm group ps).models.get? c =
      if comm = c then (m.models.get? c).map (·.enrollAll group (m.nextViews ps.length)) else m.models.get? c := by
  induction ps generalizing m with
  | nil =>
    have hid : (fun model : Model => model.enrollAll group []) = id := rfl
    simp [placeAll, nextViews, hid]
  | cons p rest ih =>
    rw [placeAll, ih, get?_place_models, List.length_cons, nextViews_succ m kind comm group p]
    split
    · rw [Option.map_map]
      rfl
    · rfl

/-- What placing leaves alone. -/
theorem placeAll_keeps (m : Manager) (ps : List Placement) :
    (m.placeAll kind comm group ps).hub = m.hub ∧
      (m.placeAll kind comm group ps).modelKinds = m.modelKinds ∧
      (m.placeAll kind comm group ps).viewKinds = m.viewKinds ∧
      (m.placeAll kind comm group ps).throttle = m.throttle := by
  induction ps generalizing m with
  | nil => exact ⟨rfl, rfl, rfl, rfl⟩
  | cons p rest ih =>
    obtain ⟨h1, h2, h3, h4⟩ := ih (m.place kind comm group p)
    cases p <;> exact ⟨h1, h2, h3, h4⟩

theorem placeAll_hosts_notebook (m : Manager) (hosts : List ViewId) :
    (m.placeAll kind comm group (hosts.map .host)).notebook = m.notebook := by
  induction hosts generalizing m with
  | nil => rfl
  | cons host rest ih => exact ih (m.place kind comm group (.host host))

end PlaceAll

/-- After views were placed: the new ones are where they should be, all alike, and of the old ones only the hosts have
changed, by one child each. -/
structure Populated (m m' : Manager) (view : View) (ps : List Placement) : Prop where
  fresh : ∀ i placement, ps[i]? = some placement →
    m'.views.get? ⟨m.nextView + i⟩ = some ⟨view, placement⟩
  host : ∀ i host slot, ps[i]? = some (.host host) → m.views.get? host = some slot →
    m'.views.get? host = some { slot with view := slot.view.addChild ⟨m.nextView + i⟩ }
  other : ∀ id, .host id ∉ ps → id ∉ m.nextViews ps.length → m'.views.get? id = m.views.get? id

theorem Consistent.populated (h : m.Consistent) {comm : CommId} {model : Model}
    (hm : m.models.get? comm = some model) (kind : ViewKind) (group : GroupKey) {ps : List Placement}
    (hlive : ∀ host, .host host ∈ ps → ∃ slot, m.views.get? host = some slot) (hn : ps.Nodup) :
    m.Populated (m.placeAll kind comm group ps) (View.new kind comm group) ps := by
  -- On the places. The first view is placed, and what holds of the rest holds from there on, with ids one higher.
  induction ps generalizing m model with
  | nil => exact ⟨nofun, nofun, fun _ _ _ => rfl⟩
  | cons p rest ih =>
    obtain ⟨hp, hrest⟩ := List.nodup_cons.mp hn
    have hfirst : ∀ host, p = .host host → ∃ slot, m.views.get? host = some slot := by
      rintro host rfl
      exact hlive host List.mem_cons_self
    have hnext := h.next_not_host hfirst
    have hget := get?_place kind comm group hnext
    have hmodel := m.get?_place_models kind comm group p comm
    rw [if_pos rfl, hm, Option.map_some] at hmodel
    have hlater : ∀ host, .host host ∈ rest →
        ∃ slot, (m.place kind comm group p).views.get? host = some slot := by
      intro host hh
      obtain ⟨slot, hs⟩ := hlive host (List.mem_cons_of_mem p hh)
      exact ⟨_, live_place kind comm group hnext h.next_dead hs⟩
    obtain ⟨hfresh, hhost, hother⟩ := ih (h.place hfirst kind group hm) hmodel hlater hrest
    rw [place_nextView] at hfresh hhost
    have hshift (i : Nat) : m.nextView + (i + 1) = m.nextView + 1 + i := by omega
    -- The first new view is none of the later ones, and hosts none of them.
    have hself : (⟨m.nextView⟩ : ViewId) ∉ (m.place kind comm group p).nextViews rest.length := by
      intro hmem
      have hle := (mem_nextViews.mp hmem).1
      rw [place_nextView] at hle
      exact Nat.not_succ_le_self _ hle
    have hbare : .host ⟨m.nextView⟩ ∉ rest := by
      intro hh
      obtain ⟨slot, hs⟩ := hlive _ (List.mem_cons_of_mem p hh)
      rw [h.next_dead] at hs
      contradiction
    refine ⟨fun i placement hi => ?_, fun i host slot hi hs => ?_, fun id hid hnew => ?_⟩
    · cases i with
      | zero =>
        obtain rfl := Option.some.inj hi
        rw [placeAll, Nat.add_zero, hother _ hbare hself, hget, if_pos rfl]
        rfl
      | succ i =>
        rw [hshift]
        exact hfresh i placement hi
    · have hplaced := live_place kind comm group hnext h.next_dead hs
      cases i with
      | zero =>
        obtain rfl := Option.some.inj hi
        have hold : host ∉ (m.place kind comm group (.host host)).nextViews rest.length := by
          have hlt := h.below_next host slot hs
          rw [mem_nextViews, place_nextView]
          omega
        rw [placeAll, hother host hp hold, hplaced, adopt, if_pos rfl]
        rfl
      | succ i =>
        have hne : p ≠ .host host := fun he => hp (he ▸ List.mem_of_getElem? hi)
        rw [adopt, if_neg hne] at hplaced
        rw [hshift]
        exact hhost i host slot hi hplaced
    · rw [List.length_cons, nextViews_succ m kind comm group p, List.mem_cons, not_or] at hnew
      rw [List.mem_cons, not_or] at hid
      have hsame : (fun slot => adopt slot id p ⟨m.nextView⟩) = fun slot => slot := by
        funext slot
        rw [adopt, if_neg (Ne.symm hid.1)]
      rw [placeAll, hother id hid.2 hnew.2, hget, if_neg (Ne.symm hnew.1), hsame, Option.map_id']

/-! ### Displaying -/

/-- What a display does: new views with consecutive ids, drawn from the model as it is, one in each host or else one in
the area of the group; and nothing else, but that the model lists and refreshes them from then on. -/
structure Displayed (m m' : Manager) (comm : CommId) (kind : ViewKind) (group : GroupKey) (model : Model)
    (hosts ids : List ViewId) : Prop where
  numbered : ids = (List.range' m.nextView (max 1 hosts.length)).map ViewId.mk
  nextView : m'.nextView = m.nextView + ids.length
  fresh : ∀ (i : Nat) (id : ViewId), ids[i]? = some id → m.views.get? id = none ∧ m'.views.get? id =
    some ⟨(View.new kind comm group).refresh model, (hosts[i]?).elim (.area group) .host⟩
  hosting : ∀ (i : Nat) (host : ViewId) (slot : Slot), hosts[i]? = some host → m.views.get? host = some slot →
    ∃ id, ids[i]? = some id ∧ m'.views.get? host =
      some { slot with view := { slot.view with children := slot.view.children ++ [id] } }
  others : ∀ id, id ∉ hosts → id ∉ ids → m'.views.get? id = m.views.get? id
  /-- Only the area of the group changes, and only without hosts. -/
  cells : ∀ index : Nat, m'.notebook.cells[index]? = (m.notebook.cells[index]?).map fun cell =>
    if hosts = [] ∧ group = .cell index then { cell with area := ⟨cell.area.views ++ ids, true⟩ } else cell
  detached : m'.notebook.detached =
    if hosts = [] ∧ m.notebook.cellOf? group = none then ⟨m.notebook.detached.views ++ ids, true⟩
    else m.notebook.detached
  selected : m'.notebook.selected = m.notebook.selected
  model : m'.models.get? comm = some { model with
    groups := model.groups.insert group (model.viewsIn group ++ ids)
    subscribers := model.subscribers ++ ids }
  models : ∀ c, c ≠ comm → m'.models.get? c = m.models.get? c
  surroundings : m'.hub = m.hub ∧ m'.modelKinds = m.modelKinds ∧ m'.viewKinds = m.viewKinds ∧
    m'.throttle = m.throttle

section Display

variable {comm : CommId} {model : Model} {kind : ViewKind} {name : String}

/-- A display places views and then draws them. -/
theorem display_eq (hk : m.viewKinds.get? name = some kind) (hm : m.models.get? comm = some model)
    (parent : Option CommId) (group : GroupKey) :
    let ps := places (m.hosts parent group) group
    m.display comm name parent group =
      .ok ((m.nextViews ps.length).foldl refreshView (m.placeAll kind comm group ps), m.nextViews ps.length) := by
  have hlive : m.models.contains comm = true := OrdMap.contains_iff.mpr ⟨model, hm⟩
  simp only [display, hk, hlive, Bool.not_true, Bool.false_eq_true, if_false, places]
  cases hhosts : m.hosts parent group with
  | nil => rfl
  | cons host rest =>
    rw [if_neg (List.cons_ne_nil host rest), List.length_map]
    simp only [createInHosts_eq]

theorem places_cons (host : ViewId) (rest : List ViewId) (group : GroupKey) :
    places (host :: rest) group = (host :: rest).map .host := if_neg (List.cons_ne_nil host rest)

theorem length_places (hosts : List ViewId) (group : GroupKey) : (places hosts group).length = max 1 hosts.length := by
  cases hosts with
  | nil => rfl
  | cons host rest =>
    rw [places_cons, List.length_map, List.length_cons]
    omega

theorem getElem?_places (hosts : List ViewId) (group : GroupKey) {i : Nat} (hi : i < (places hosts group).length) :
    (places hosts group)[i]? = some ((hosts[i]?).elim (.area group) .host) := by
  cases hosts with
  | nil =>
    obtain rfl : i = 0 := Nat.lt_one_iff.mp hi
    rfl
  | cons host rest =>
    rw [places_cons, List.length_map] at hi
    rw [places_cons, List.getElem?_map, List.getElem?_eq_getElem hi]
    rfl

theorem host_mem_places {hosts : List ViewId} {group : GroupKey} {host : ViewId} :
    .host host ∈ places hosts group ↔ host ∈ hosts := by
  cases hosts with
  | nil => simp [places]
  | cons first rest => simp [places_cons]

theorem nodup_places {hosts : List ViewId} (hn : hosts.Nodup) (group : GroupKey) : (places hosts group).Nodup := by
  cases hosts with
  | nil => exact List.nodup_singleton _
  | cons host rest =>
    rw [places_cons]
    exact List.Nodup.map (fun _ _ he => Placement.host.inj he) hn

/-- The notebook lists a view without hosts in the area of its group. -/
theorem placeAll_places_notebook (m : Manager) (kind : ViewKind) (comm : CommId) (hosts : List ViewId)
    (group : GroupKey) : (m.placeAll kind comm group (places hosts group)).notebook =
      if hosts = [] then m.notebook.modifyArea group fun area => ⟨area.views ++ [⟨m.nextView⟩], true⟩
      else m.notebook := by
  cases hosts with
  | nil => rfl
  | cons host rest =>
    rw [places_cons, placeAll_hosts_notebook, if_neg (List.cons_ne_nil host rest)]

/-- The model lists and refreshes what was placed. -/
theorem Consistent.placeAll_model (h : m.Consistent) (hm : m.models.get? comm = some model) (kind : ViewKind)
    (group : GroupKey) {ps : List Placement} (hne : ps ≠ []) :
    (m.placeAll kind comm group ps).models.get? comm = some { model with
      groups := model.groups.insert group (model.viewsIn group ++ m.nextViews ps.length)
      subscribers := model.subscribers ++ m.nextViews ps.length } := by
  have hids : m.nextViews ps.length ≠ [] := by
    rw [← List.length_pos_iff, length_nextViews]
    exact List.length_pos_iff.mpr hne
  have hunknown : ∀ id ∈ m.nextViews ps.length, id ∉ model.subscribers := by
    intro id hid hsub
    obtain ⟨slot, hs, _⟩ := h.known comm model id hm (((h.tidy comm model hm).mem_subscribers id).mp hsub)
    exact h.not_mem_nextViews hs hid
  rw [get?_placeAll_models, if_pos rfl, hm, Option.map_some, Model.enrollAll_eq hids (nodup_nextViews m _) hunknown]

/-- Of what was placed only the new views are drawn, from the model as it was, since that it has more views makes no
difference to them. -/
theorem Consistent.populated_drawn (h : m.Consistent) (hm : m.models.get? comm = some model) (kind : ViewKind)
    (group : GroupKey) {ps : List Placement} (hne : ps ≠ [])
    (hlive : ∀ host, .host host ∈ ps → ∃ slot, m.views.get? host = some slot) (hn : ps.Nodup) :
    m.Populated ((m.nextViews ps.length).foldl refreshView (m.placeAll kind comm group ps))
      ((View.new kind comm group).refresh model) ps := by
  let placed := m.placeAll kind comm group ps
  let ids := m.nextViews ps.length
  obtain ⟨hfresh, hhost, hother⟩ := h.populated hm kind group hlive hn
  have hget (id : ViewId) : (ids.foldl refreshView placed).views.get? id =
      (placed.views.get? id).map fun slot => if id ∈ ids then placed.redrawn slot else slot := by
    rw [refresh_eq placed (nodup_nextViews m _), OrdMap.get?_mapValues]
  have hold {id : ViewId} (hid : id ∉ ids) : (ids.foldl refreshView placed).views.get? id = placed.views.get? id := by
    simp only [hget, if_neg hid, Option.map_id_fun', id_eq]
  refine ⟨fun i placement hi => ?_, fun i host slot hi hs => ?_, fun id hid hnew => ?_⟩
  · have hmem : (⟨m.nextView + i⟩ : ViewId) ∈ ids :=
      mem_nextViews.mpr ⟨Nat.le_add_right _ _, Nat.add_lt_add_left (List.getElem?_eq_some_iff.mp hi).1 _⟩
    have hdrawn : placed.redrawn ⟨View.new kind comm group, placement⟩ =
        ⟨(View.new kind comm group).refresh model, placement⟩ := by
      have hown : placed.models.get? (View.new kind comm group).model = _ := h.placeAll_model hm kind group hne
      simp only [redrawn, hown]
      exact congrArg (Slot.mk · placement) (View.refresh_congr rfl rfl _)
    rw [hget, hfresh i placement hi, Option.map_some, if_pos hmem, hdrawn]
  · rw [hold (h.not_mem_nextViews hs), hhost i host slot hi hs]
  · rw [hold hnew, hother id hid hnew]

/-- Where the notebook lists new views that have no hosts. -/
theorem notebook_displayed (m : Manager) (kind : ViewKind) (comm : CommId) (group : GroupKey) (hosts : List ViewId) :
    let ids := m.nextViews (places hosts group).length
    let after := (m.placeAll kind comm group (places hosts group)).notebook
    (∀ index : Nat, after.cells[index]? = (m.notebook.cells[index]?).map fun cell =>
      if hosts = [] ∧ group = .cell index then { cell with area := ⟨cell.area.views ++ ids, true⟩ } else cell) ∧
    after.detached = (if hosts = [] ∧ m.notebook.cellOf? group = none then ⟨m.notebook.detached.views ++ ids, true⟩
      else m.notebook.detached) ∧
    after.selected = m.notebook.selected := by
  intro ids after
  have hafter : after = _ := m.placeAll_places_notebook kind comm hosts group
  cases hosts with
  | nil =>
    have hafter : after = m.notebook.modifyArea group fun area => ⟨area.views ++ ids, true⟩ := hafter
    rw [hafter]
    refine ⟨fun index => ?_, ?_, m.notebook.selected_modifyArea group _⟩
    · simp only [Notebook.getElem?_cells_modifyArea, true_and]
    · simp only [Notebook.detached_modifyArea, true_and]
  | cons host rest =>
    have hsame : after = m.notebook := hafter
    rw [hsame]
    simp

theorem Consistent.displayed (h : m.Consistent) (ho : m.InOrder) (hk : m.viewKinds.get? name = some kind)
    (hm : m.models.get? comm = some model) (parent : Option CommId) (group : GroupKey) :
    ∃ m' ids, m.display comm name parent group = .ok (m', ids) ∧
      m.Displayed m' comm kind group model (m.hosts parent group) ids := by
  let hosts := m.hosts parent group
  let ps := places hosts group
  have hnodup : hosts.Nodup := (ho.hosts parent group).imp fun {a b} hlt he => absurd (he ▸ hlt) (Nat.lt_irrefl a.index)
  have hlive : ∀ host, .host host ∈ ps → ∃ slot, m.views.get? host = some slot := fun host hh =>
    live_of_mem_hosts (host_mem_places.mp hh)
  have hne : ps ≠ [] := by
    rw [← List.length_pos_iff, length_places]
    omega
  have hviews := h.populated_drawn hm kind group hne hlive (nodup_places hnodup group)
  have hnotebook := m.notebook_displayed kind comm group hosts
  obtain ⟨hhub, hmodelKinds, hviewKinds, hthrottle⟩ := placeAll_keeps kind comm group m ps
  have hlt {i : Nat} {host : ViewId} (hi : hosts[i]? = some host) : i < ps.length := by
    rw [length_places]
    exact Nat.lt_of_lt_of_le (List.getElem?_eq_some_iff.mp hi).1 (Nat.le_max_right _ _)
  refine ⟨_, _, display_eq hk hm parent group, ?_⟩
  have hdrawn := refresh_eq (m.placeAll kind comm group ps) (nodup_nextViews m ps.length)
  exact
    { numbered := by
        rw [length_places]
        rfl
      nextView := by
        rw [hdrawn, length_nextViews]
        exact placeAll_nextView kind comm group m ps
      fresh := by
        intro i id hi
        have hplace : i < ps.length := by
          have hlen := (List.getElem?_eq_some_iff.mp hi).1
          rwa [length_nextViews] at hlen
        rw [getElem?_nextViews m hplace] at hi
        obtain rfl := Option.some.inj hi
        refine ⟨?_, hviews.fresh i _ (getElem?_places hosts group hplace)⟩
        exact h.dead_of_le (Nat.le_add_right _ _)
      hosting := by
        intro i host slot hi hs
        have hplace : ps[i]? = some (.host host) := by rw [getElem?_places hosts group (hlt hi), hi, Option.elim_some]
        exact ⟨_, getElem?_nextViews m (hlt hi), hviews.host i host slot hplace hs⟩
      others := fun id hid hnew => hviews.other id (fun hmem => hid (host_mem_places.mp hmem)) hnew
      cells := by
        rw [hdrawn]
        exact hnotebook.1
      detached := by
        rw [hdrawn]
        exact hnotebook.2.1
      selected := by
        rw [hdrawn]
        exact hnotebook.2.2
      model := by
        rw [refresh_models]
        exact h.placeAll_model hm kind group hne
      models := by
        intro c hc
        rw [refresh_models, get?_placeAll_models, if_neg (Ne.symm hc)]
      surroundings := by
        rw [hdrawn]
        exact ⟨hhub, hmodelKinds, hviewKinds, hthrottle⟩ }

end Display

/-- Displays in every state that operations reach from a new manager, of any live model, by any name of a known kind,
with any parent, which may be the model itself, and in any group. The hosts are the containers that the parent displays
in the group, by age; each gets one view, or else the area of the group gets it; and no frame is sent. -/
theorem display_places_views (notebook : Notebook) (throttle : Nat) (ops : List Operation) (comm : CommId)
    (name : String) (parent : Option CommId) (group : GroupKey) (kind : ViewKind) (model : Model) :
    let m := ((new notebook throttle).run ops).1
    m.viewKinds.get? name = some kind → m.models.get? comm = some model →
      ((m.hosts parent group).Pairwise (·.index < ·.index) ∧
        ∀ id, id ∈ m.hosts parent group ↔ ∃ slot, m.views.get? id = some slot ∧ parent = some slot.view.model ∧
          slot.view.group = group ∧ slot.view.kind = .container) ∧
      ∃ m' ids, m.display comm name parent group = .ok (m', ids) ∧
        m.step (.display comm name parent group) = ⟨m', [], .ok (.displayed ids)⟩ ∧
        m.Displayed m' comm kind group model (m.hosts parent group) ids := by
  intro m hk hm
  have h : m.Consistent := (new_consistent notebook throttle).run ops
  have ho : m.InOrder := (new_consistent notebook throttle).inOrder_run (new_inOrder notebook throttle) ops
  obtain ⟨m', ids, hd, hdisplayed⟩ := h.displayed ho hk hm parent group
  refine ⟨⟨ho.hosts parent group, fun id => h.mem_hosts⟩, m', ids, hd, ?_, hdisplayed⟩
  rw [step, hd]
  rfl

/-- A checkbox is displayed in its own model, which two containers show: each of them gets one. -/
theorem checkbox_in_both_containers :
    let ops : List Operation := [.registerDefaults, .openComm ⟨⟨"c"⟩, "BoolWidgetModel"⟩,
      .display ⟨"c"⟩ "ContainerView" none (.cell 0), .display ⟨"c"⟩ "ContainerView" none (.cell 0)]
    let m := ((new (.withCells 1) 3).run ops).1
    m.hosts (some ⟨"c"⟩) (.cell 0) = [⟨1⟩, ⟨2⟩] ∧
      ∃ model m', m.models.get? ⟨"c"⟩ = some model ∧
        m.step (.display ⟨"c"⟩ "CheckboxView" (some ⟨"c"⟩) (.cell 0)) = ⟨m', [], .ok (.displayed [⟨3⟩, ⟨4⟩])⟩ ∧
        m.Displayed m' ⟨"c"⟩ .checkbox (.cell 0) model [⟨1⟩, ⟨2⟩] [⟨3⟩, ⟨4⟩] := by
  intro ops m
  have hkind : m.viewKinds.get? "CheckboxView" = some .checkbox := by decide +kernel
  have hhosts : m.hosts (some ⟨"c"⟩) (.cell 0) = [⟨1⟩, ⟨2⟩] := by decide +kernel
  have hnext : m.nextView = 3 := by decide +kernel
  have hlive : m.models.contains ⟨"c"⟩ = true := by decide +kernel
  obtain ⟨model, hm⟩ := OrdMap.contains_iff.mp hlive
  obtain ⟨-, m', ids, -, hstep, hdisplayed⟩ := display_places_views (.withCells 1) 3 ops ⟨"c"⟩ "CheckboxView"
    (some ⟨"c"⟩) (.cell 0) .checkbox model hkind hm
  have hids : ids = [⟨3⟩, ⟨4⟩] := by
    have hnumbered := hdisplayed.numbered
    rw [show ((new (.withCells 1) 3).run ops).1 = m from rfl, hhosts, hnext] at hnumbered
    exact hnumbered
  subst hids
  refine ⟨hhosts, model, m', hm, hstep, ?_⟩
  rw [← hhosts]
  exact hdisplayed

end Manager

end WidgetSync
