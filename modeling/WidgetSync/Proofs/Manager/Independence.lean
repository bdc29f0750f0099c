import WidgetSync.Proofs.Manager.Effect

/-! Comms do not disturb one another. An operation that is addressed to a comm reads that comm's model and views only,
and changes nothing else, so that operations on two comms commute, and the order in which two lists of them are
interleaved makes no difference. -/
namespace WidgetSync

/-- One list holds the items of two others, each in its own order. -/
inductive Interleaving {α : Type} : List α → List α → List α → Prop
  | nil : Interleaving [] [] []
  | left {x : α} {xs ys zs : List α} (h : Interleaving xs ys zs) : Interleaving (x :: xs) ys (x :: zs)
  | right {y : α} {xs ys zs : List α} (h : Interleaving xs ys zs) : Interleaving xs (y :: ys) (y :: zs)

namespace Manager

/-- Addressed to a comm: what the backend tells the comm's model, short of displaying it, and what is asked of views
of that comm, or of views that are not there. -/
inductive Addressed (m : Manager) (comm : CommId) : Operation → Prop
  | update (state : Attributes) : Addressed m comm (.update comm state)
  | message (message : CommMessage) (hc : message.comm = comm)
      (hd : ∀ name parent cell, ModelMessage.ofJson? message.data ≠ some (.display name parent cell)) :
      Addressed m comm (.message message)
  | status (report : StatusMessage) : Addressed m comm (.status comm report)
  | ui (view : ViewId) (event : UiEvent) (hv : ∀ c, m.views.owner view = some c → c = comm) :
      Addressed m comm (.ui view event)
  | change (view : ViewId) (changes : Attributes) (hv : ∀ c, m.views.owner view = some c → c = comm) :
      Addressed m comm (.change view changes)
  | sendCustom (view : ViewId) (content : Value) (hv : ∀ c, m.views.owner view = some c → c = comm) :
      Addressed m comm (.sendCustom view content)

variable {m m' : Manager} {a b comm : CommId} {op x y : Operation}

theorem Addressed.of_owner (h : m.Addressed comm op) (ho : ∀ id, m'.views.owner id = m.views.owner id) :
    m'.Addressed comm op := by
  cases h with
  | update state => exact .update state
  | message message hc hd => exact .message message hc hd
  | status report => exact .status report
  | ui view event hv => exact .ui view event (by rw [ho]; exact hv)
  | change view changes hv => exact .change view changes (by rw [ho]; exact hv)
  | sendCustom view content hv => exact .sendCustom view content (by rw [ho]; exact hv)

/-- What an operation does to a comm and sends on it, if it does anything. -/
def answer (m : Manager) (comm : CommId) (op : Operation) : Option (Effect × List Frame) :=
  if m.about op = some comm then
    (m.models.get? comm).map fun model =>
      (op.effect model (m.requestOn comm op), (m.requestOn comm op).elim [] fun r => (model.ask r).2)
  else none

/-- An answer sends on its own comm, and takes no view away from it. -/
theorem Consistent.answer_own (h : m.Consistent) {e : Effect} {frames : List Frame}
    (he : m.answer comm op = some (e, frames)) :
    (∀ id v, (e.draw id v).model = v.model) ∧ ∀ f ∈ frames, f.comm = comm := by
  rw [answer] at he
  split at he
  · obtain ⟨model, hm, he⟩ := Option.map_eq_some_iff.mp he
    obtain ⟨rfl, rfl⟩ := Prod.mk.inj he
    refine ⟨Operation.effect_keeps op model _, fun f hf => ?_⟩
    cases hr : m.requestOn comm op with
    | none =>
      rw [hr] at hf
      exact absurd hf List.not_mem_nil
    | some r =>
      rw [hr] at hf
      obtain ⟨data, callbacks, rfl⟩ := Model.message_of_mem_ask hf
      show model.id = comm
      rw [Model.id, h.opened comm model hm]
      rfl
  · contradiction

theorem Consistent.step_eq_answer (h : m.Consistent) (ha : m.Addressed comm op) :
    (m.step op).manager = (m.answer comm op).elim m (fun e => m.undergo comm e.1) ∧
      (m.step op).frames = (m.answer comm op).elim [] (·.2) := by
  by_cases hb : m.about op = some comm
  · rw [answer, if_pos hb]
    cases hm : m.models.get? comm with
    | none => exact h.still hb hm
    | some model => exact ⟨(h.affects hb hm).manager, (h.affects hb hm).frames⟩
  · rw [answer, if_neg hb]
    -- A view that is not this comm's is not there at all.
    have hdead {view : ViewId} (hv : ∀ c, m.views.owner view = some c → c = comm)
        (hne : m.views.owner view ≠ some comm) : m.modelOf view = .error (.unknownView view) := by
      apply modelOf_of_dead
      refine Option.eq_none_iff_forall_ne_some.mpr fun c hc => hne ?_
      rw [hc, hv c hc]
    cases ha with
    | update state => exact absurd rfl hb
    | status report => exact absurd rfl hb
    | message message hc hd =>
      refine absurd ?_ hb
      simp only [about]
      rw [hc]
    | ui view event hv =>
      refine ⟨?_, ?_⟩ <;> rw [Manager.step, handleUi, hdead hv hb] <;> rfl
    | change view changes hv =>
      refine ⟨?_, ?_⟩ <;> rw [Manager.step, change, hdead hv hb] <;> rfl
    | sendCustom view content hv =>
      refine ⟨?_, ?_⟩ <;> rw [Manager.step, sendCustom, hdead hv hb] <;> rfl

/-! ### What is read -/

/-- Two managers that have the same model of a comm and the same views of it. -/
structure Agree (comm : CommId) (m m' : Manager) : Prop where
  model : m'.models.get? comm = m.models.get? comm
  views : ∀ id slot, slot.view.model = comm → (m'.views.get? id = some slot ↔ m.views.get? id = some slot)

theorem Agree.owner (h : Agree comm m m') (id : ViewId) :
    m'.views.owner id = some comm ↔ m.views.owner id = some comm := by
  simp only [Arena.owner, Option.map_eq_some_iff]
  constructor
  · rintro ⟨slot, hs, hc⟩
    exact ⟨slot, (h.views id slot hc).mp hs, hc⟩
  · rintro ⟨slot, hs, hc⟩
    exact ⟨slot, (h.views id slot hc).mpr hs, hc⟩

theorem Agree.about (h : Agree comm m m') (op : Operation) :
    m'.about op = some comm ↔ m.about op = some comm := by
  cases op with
  | change view changes => exact h.owner view
  | ui view event => exact h.owner view
  | sendCustom view content => exact h.owner view
  | _ => exact Iff.rfl

theorem Agree.requestOn (h : Agree comm m m') (hb : m.about op = some comm) :
    m'.requestOn comm op = m.requestOn comm op := by
  have hmodelOf {view : ViewId} (ho : m.views.owner view = some comm) :
      m'.modelOf view = m.modelOf view := by
    obtain ⟨slot, hs, rfl⟩ := Option.map_eq_some_iff.mp ho
    have hs' := (h.views view slot rfl).mpr hs
    rw [modelOf, modelOf, hs, hs']
    simp only [h.model]
  have hrequest : m'.request op = m.request op := by
    cases op with
    | message message =>
      simp only [Manager.about] at hb
      split at hb
      · contradiction
      · obtain rfl := Option.some.inj hb
        simp only [request, h.model]
    | update c state =>
      obtain rfl := Option.some.inj hb
      simp only [request, h.model]
    | status c report =>
      obtain rfl := Option.some.inj hb
      simp only [request, h.model]
    | change view changes => rw [request, request, hmodelOf hb]
    | ui view event => simp only [request, hmodelOf hb]
    | sendCustom view content => rw [request, request, hmodelOf hb]
    | _ => contradiction
  rw [Manager.requestOn, Manager.requestOn, hrequest]

/-- An answer depends on the comm's own model and views only. -/
theorem Agree.answer (h : Agree comm m m') (op : Operation) : m'.answer comm op = m.answer comm op := by
  by_cases hb : m.about op = some comm
  · rw [Manager.answer, Manager.answer, if_pos hb, if_pos ((h.about op).mpr hb), h.model, h.requestOn hb]
  · rw [Manager.answer, Manager.answer, if_neg hb, if_neg fun hc => hb ((h.about op).mp hc)]

/-! ### What is changed -/

section Undergo

variable {e f : Effect} (he : ∀ id v, (e.draw id v).model = v.model)
include he

theorem owner_undergo (m : Manager) (comm : CommId) (id : ViewId) :
    (m.undergo comm e).views.owner id = m.views.owner id := by
  rw [Arena.owner, get?_undergo_views, Option.map_map, Arena.owner]
  congr 1
  funext slot
  by_cases hc : slot.view.model = comm
  · simp [Slot.redraw, hc, he]
  · simp [Slot.redraw, hc]

theorem agree_undergo (m : Manager) (hab : a ≠ b) : Agree b m (m.undergo a e) where
  model := by
    show (m.models.insert a e.model).get? b = _
    rw [OrdMap.get?_insert_eq, if_neg hab]
  views := by
    intro id slot hc
    rw [get?_undergo_views, Option.map_eq_some_iff]
    constructor
    · rintro ⟨old, ho, hr⟩
      by_cases hm : old.view.model = a
      · -- A view of the one comm is not drawn as a view of the other.
        rw [Slot.redraw, if_pos hm] at hr
        refine absurd ?_ hab
        rw [← hm, ← he id old.view, ← hc, ← hr]
      · rw [Slot.redraw, if_neg hm] at hr
        rw [← hr]
        exact ho
    · intro hs
      have hm : slot.view.model ≠ a := fun h => hab (h.symm.trans hc)
      exact ⟨slot, hs, by rw [Slot.redraw, if_neg hm]⟩

variable (hf : ∀ id v, (f.draw id v).model = v.model)
include hf

/-- Effects on two comms commute. -/
theorem undergo_comm (m : Manager) (hab : a ≠ b) :
    (m.undergo a e).undergo b f = (m.undergo b f).undergo a e := by
  have hmodels : (m.models.insert a e.model).insert b f.model =
      (m.models.insert b f.model).insert a e.model := by
    refine OrdMap.ext fun c => ?_
    simp only [OrdMap.get?_insert_eq]
    by_cases hb : b = c
    · have ha : a ≠ c := fun h => hab (h.trans hb.symm)
      simp [hb, ha]
    · simp [hb]
  have hviews : ((m.undergo a e).undergo b f).views = ((m.undergo b f).undergo a e).views := by
    refine OrdMap.ext fun id => ?_
    simp only [get?_undergo_views, Option.map_map]
    congr 1
    funext slot
    by_cases ha : slot.view.model = a
    · simp [Slot.redraw, ha, hab, he]
    · by_cases hb : slot.view.model = b
      · simp [Slot.redraw, hb, hab.symm, hf]
      · simp [Slot.redraw, ha, hb]
  simp only [undergo] at hviews ⊢
  rw [hviews, hmodels]

end Undergo

namespace Consistent

variable (h : m.Consistent)
include h

theorem step_owner (ha : m.Addressed a op) (id : ViewId) :
    (m.step op).manager.views.owner id = m.views.owner id := by
  rw [(h.step_eq_answer ha).1]
  cases he : m.answer a op with
  | none => rfl
  | some e => exact owner_undergo (h.answer_own he).1 m a id

theorem step_agree (ha : m.Addressed a op) (hab : a ≠ b) : Agree b m (m.step op).manager := by
  rw [(h.step_eq_answer ha).1]
  cases he : m.answer a op with
  | none => exact ⟨rfl, fun _ _ _ => Iff.rfl⟩
  | some e => exact agree_undergo (h.answer_own he).1 m hab

theorem step_frames_own (ha : m.Addressed a op) : ∀ f ∈ (m.step op).frames, f.comm = a := by
  rw [(h.step_eq_answer ha).2]
  cases he : m.answer a op with
  | none => exact fun f hf => absurd hf List.not_mem_nil
  | some e => exact (h.answer_own he).2

/-- Two operations on different comms may change places, and the second sends what it would have sent first. -/
theorem step_comm (hx : m.Addressed a x) (hy : m.Addressed b y) (hab : a ≠ b) :
    ((m.step x).manager.step y).manager = ((m.step y).manager.step x).manager ∧
      ((m.step x).manager.step y).frames = (m.step y).frames := by
  have hy' : (m.step x).manager.Addressed b y := hy.of_owner (h.step_owner hx)
  have hx' : (m.step y).manager.Addressed a x := hx.of_owner (h.step_owner hy)
  have hansy : (m.step x).manager.answer b y = m.answer b y := (h.step_agree hx hab).answer y
  have hansx : (m.step y).manager.answer a x = m.answer a x := (h.step_agree hy hab.symm).answer x
  obtain ⟨hmy, hfy⟩ := (h.step x).step_eq_answer hy'
  obtain ⟨hmx, _⟩ := (h.step y).step_eq_answer hx'
  obtain ⟨hm₁, _⟩ := h.step_eq_answer hx
  obtain ⟨hm₂, hf₂⟩ := h.step_eq_answer hy
  rw [hansy] at hmy hfy
  rw [hansx] at hmx
  refine ⟨?_, hfy.trans hf₂.symm⟩
  rw [hmy, hmx, hm₁, hm₂]
  cases hax : m.answer a x with
  | none => rfl
  | some e =>
    cases hby : m.answer b y with
    | none => rfl
    | some f => exact undergo_comm (h.answer_own hax).1 (h.answer_own hby).1 m hab

/-- An operation on one comm may be put before or after a run of another. -/
theorem step_run_comm (hx : m.Addressed a x) {ys : List Operation} (hys : ∀ y ∈ ys, m.Addressed b y)
    (hab : a ≠ b) :
    ((m.step x).manager.run ys).1 = ((m.run ys).1.step x).manager ∧
      ((m.step x).manager.run ys).2 = (m.run ys).2 := by
  induction ys generalizing m with
  | nil => exact ⟨rfl, rfl⟩
  | cons y rest ih =>
    have hy := hys y List.mem_cons_self
    have howner := h.step_owner hy
    obtain ⟨hm, hf⟩ := h.step_comm hx hy hab
    obtain ⟨hrun, hframes⟩ := ih (h.step y) (hx.of_owner howner) fun z hz =>
      (hys z (List.mem_cons_of_mem _ hz)).of_owner howner
    rw [run_cons, run_cons, hm, hf, hrun, hframes]
    exact ⟨rfl, rfl⟩

/-- An interleaving of operations on two comms does what the one list does and then the other, and on each comm it
sends what that comm's list sends by itself. -/
theorem run_interleaving {xs ys zs : List Operation} (hz : Interleaving xs ys zs)
    (hxs : ∀ x ∈ xs, m.Addressed a x) (hys : ∀ y ∈ ys, m.Addressed b y) (hab : a ≠ b) :
    (m.run zs).1 = ((m.run xs).1.run ys).1 ∧ framesOn a (m.run zs).2 = (m.run xs).2 ∧
      framesOn b (m.run zs).2 = (m.run ys).2 := by
  induction hz generalizing m with
  | nil => exact ⟨rfl, rfl, rfl⟩
  | @left x xs ys zs _ ih =>
    have hx := hxs x List.mem_cons_self
    have howner := h.step_owner hx
    have hown := h.step_frames_own hx
    obtain ⟨hm, ha, hb⟩ := ih (h.step x)
      (fun z hz => (hxs z (List.mem_cons_of_mem _ hz)).of_owner howner) fun z hz => (hys z hz).of_owner howner
    have hother : framesOn b (m.step x).frames = [] :=
      framesOn_other fun f hf hc => hab ((hown f hf).symm.trans hc)
    simp only [run_cons, framesOn_append, framesOn_self hown, hother, ha, hb, List.nil_append]
    exact ⟨hm, trivial, (h.step_run_comm hx hys hab).2⟩
  | @right y xs ys zs _ ih =>
    have hy := hys y List.mem_cons_self
    have howner := h.step_owner hy
    have hown := h.step_frames_own hy
    obtain ⟨hm, ha, hb⟩ := ih (h.step y) (fun z hz => (hxs z hz).of_owner howner)
      fun z hz => (hys z (List.mem_cons_of_mem _ hz)).of_owner howner
    obtain ⟨hrun, hframes⟩ := h.step_run_comm hy hxs hab.symm
    have hother : framesOn a (m.step y).frames = [] :=
      framesOn_other fun f hf hc => hab (hc.symm.trans (hown f hf))
    simp only [run_cons, framesOn_append, framesOn_self hown, hother, ha, hb, List.nil_append]
    refine ⟨?_, hframes, trivial⟩
    rw [hm, hrun]

end Consistent

/-- In every state that operations reach from a new manager: of two lists of operations, addressed to different comms,
all interleavings end in the same state and send the same on each of the two comms. The views of the one comm may well
be hosted by views of the other, and operations may fail. -/
theorem comms_independent (notebook : Notebook) (throttle : Nat) (before : List Operation) (a b : CommId)
    (hab : a ≠ b) (xs ys zs zs' : List Operation)
    (hxs : ∀ x ∈ xs, ((new notebook throttle).run before).1.Addressed a x)
    (hys : ∀ y ∈ ys, ((new notebook throttle).run before).1.Addressed b y)
    (hz : Interleaving xs ys zs) (hz' : Interleaving xs ys zs') :
    let m := ((new notebook throttle).run before).1
    (m.run zs).1 = (m.run zs').1 ∧ framesOn a (m.run zs).2 = framesOn a (m.run zs').2 ∧
      framesOn b (m.run zs).2 = framesOn b (m.run zs').2 := by
  intro m
  have h : m.Consistent := (new_consistent notebook throttle).run before
  -- Each of them does what the one list does and then the other.
  obtain ⟨hm, ha, hb⟩ := h.run_interleaving hz hxs hys hab
  obtain ⟨hm', ha', hb'⟩ := h.run_interleaving hz' hxs hys hab
  exact ⟨hm.trans hm'.symm, ha.trans ha'.symm, hb.trans hb'.symm⟩

/-- A container, and the checkbox of another comm in it: what is asked of the two may be mixed in any way. -/
theorem box_in_container_independent :
    let before : List Operation := [.registerDefaults, .openComm ⟨⟨"c"⟩, "ContainerWidgetModel"⟩,
      .openComm ⟨⟨"d"⟩, "BoolWidgetModel"⟩, .display ⟨"c"⟩ "ContainerView" none (.cell 0),
      .display ⟨"d"⟩ "CheckboxView" (some ⟨"c"⟩) (.cell 0)]
    let m := ((new (.withCells 1) 1).run before).1
    let toContainer : List Operation := [.sendCustom ⟨1⟩ .null, .status ⟨"c"⟩ ⟨.idle⟩]
    let toBox : List Operation := [.ui ⟨2⟩ .click, .ui ⟨2⟩ .click, .status ⟨"d"⟩ ⟨.idle⟩]
    let mixed : List Operation := [.ui ⟨2⟩ .click, .sendCustom ⟨1⟩ .null, .ui ⟨2⟩ .click,
      .status ⟨"c"⟩ ⟨.idle⟩, .status ⟨"d"⟩ ⟨.idle⟩]
    (m.run mixed).1 = (m.run (toContainer ++ toBox)).1 ∧
      framesOn ⟨"c"⟩ (m.run mixed).2 = framesOn ⟨"c"⟩ (m.run (toContainer ++ toBox)).2 ∧
      framesOn ⟨"d"⟩ (m.run mixed).2 = framesOn ⟨"d"⟩ (m.run (toContainer ++ toBox)).2 := by
  intro before m toContainer toBox mixed
  have hcontainer : m.views.owner ⟨1⟩ = some ⟨"c"⟩ := by decide +kernel
  have hbox : m.views.owner ⟨2⟩ = some ⟨"d"⟩ := by decide +kernel
  have hxs : ∀ x ∈ toContainer, m.Addressed ⟨"c"⟩ x := by
    intro x hx
    simp only [toContainer, List.mem_cons, List.not_mem_nil, or_false] at hx
    rcases hx with rfl | rfl
    · refine .sendCustom ⟨1⟩ .null fun c hc => ?_
      rw [hcontainer] at hc
      exact (Option.some.inj hc).symm
    · exact .status ⟨.idle⟩
  have hys : ∀ y ∈ toBox, m.Addressed ⟨"d"⟩ y := by
    have hclick : m.Addressed ⟨"d"⟩ (.ui ⟨2⟩ .click) := by
      refine .ui ⟨2⟩ .click fun c hc => ?_
      rw [hbox] at hc
      exact (Option.some.inj hc).symm
    intro y hy
    simp only [toBox, List.mem_cons, List.not_mem_nil, or_false] at hy
    rcases hy with rfl | rfl | rfl
    · exact hclick
    · exact hclick
    · exact .status ⟨.idle⟩
  have hmixed : Interleaving toContainer toBox mixed := .right (.left (.right (.left (.right .nil))))
  have hapart : Interleaving toContainer toBox (toContainer ++ toBox) :=
    .left (.left (.right (.right (.right .nil))))
  exact comms_independent (.withCells 1) 1 before ⟨"c"⟩ ⟨"d"⟩ (by decide) toContainer toBox mixed
    (toContainer ++ toBox) hxs hys hmixed hapart

end Manager

end WidgetSync
