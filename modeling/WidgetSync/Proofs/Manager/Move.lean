import WidgetSync.Proofs.Manager.Upkeep
import WidgetSync.Proofs.Model.Delivery
import WidgetSync.Proofs.Notebook.Areas

/-! What an operation does to a manager, piece by piece. An operation opens a comm, executes a cell, or is made of
moves of six kinds, so that what every move keeps holds after every operation. -/
namespace WidgetSync

/-- An operation on the state of a model, not on its views or its comm. -/
def ModelOperation.isStateful : ModelOperation → Bool
  | .set _ => true
  | .requestSync _ patch => patch
  | .sendCustom _ => true
  | .status _ => true
  | .applyRemote _ => true
  | .setLastModified _ => true
  | _ => false

namespace Manager

/-- A change of what surrounds models, views and areas. -/
structure Around (m m' : Manager) : Prop where
  models : m'.models = m.models
  views : m'.views = m.views
  areas : m'.notebook.areas = m.notebook.areas
  nextView : m'.nextView = m.nextView
  throttle : m'.throttle = m.throttle
  reader : m'.hub.hasReader = m.hub.hasReader

/-- A move, with the local changes that models are told, and the frames sent. -/
inductive Move : Manager → Manager → List (CommId × Attributes) → List Frame → Prop
  | around {m m' : Manager} (h : Around m m') : Move m m' [] []
  /-- A model is asked something. -/
  | ask {m : Manager} {comm : CommId} {model : Model} (hm : m.models.get? comm = some model)
      (ops : List ModelOperation) (ho : ∀ op ∈ ops, op.isStateful = true) :
      Move m (m.setModel comm (model.run ops).1)
        ((ops.filterMap ModelOperation.change?).map (comm, ·)) (model.run ops).2
  /-- A view is drawn. -/
  | draw {m : Manager} {id : ViewId} (f : View → View)
      (hf : ∀ slot, m.views.get? id = some slot → (f slot.view).model = slot.view.model ∧
        (f slot.view).group = slot.view.group ∧ (f slot.view).children = slot.view.children) :
      Move m (m.modifyView id f) [] []
  | place {m : Manager} {comm : CommId} {model : Model} {placement : Placement}
      (hm : m.models.get? comm = some model)
      (hp : ∀ host, placement = .host host → ∃ slot, m.views.get? host = some slot)
      (kind : ViewKind) (group : GroupKey) : Move m (m.place kind comm group placement) [] []
  | remove (m : Manager) (id : ViewId) : Move m (m.removeView id).1 [] (m.removeView id).2
  | close (m : Manager) (comm : CommId) : Move m (m.closeComm comm).1 [] (m.closeComm comm).2

inductive Moves : Manager → Manager → List (CommId × Attributes) → List Frame → Prop
  | refl (m : Manager) : Moves m m [] []
  | head {m m₁ m₂ : Manager} {made more : List (CommId × Attributes)} {frames rest : List Frame}
      (first : Move m m₁ made frames) (tail : Moves m₁ m₂ more rest) :
      Moves m m₂ (made ++ more) (frames ++ rest)

namespace Moves

variable {m m₁ m₂ : Manager} {made more : List (CommId × Attributes)} {frames rest : List Frame}

theorem single (h : Move m m₁ made frames) : Moves m m₁ made frames := by
  have hs := Moves.head h (.refl m₁)
  rwa [List.append_nil, List.append_nil] at hs

theorem trans (h : Moves m m₁ made frames) (k : Moves m₁ m₂ more rest) :
    Moves m m₂ (made ++ more) (frames ++ rest) := by
  induction h with
  | refl => exact k
  | head first _ ih =>
    rw [List.append_assoc, List.append_assoc]
    exact .head first (ih k)

end Moves

/-! ### What moves keep -/

/-- Asked about its state, a model keeps its comm and its views. -/
theorem run_outline {model : Model} {ops : List ModelOperation}
    (ho : ∀ op ∈ ops, op.isStateful = true) : (model.run ops).1.outline = model.outline := by
  induction ops generalizing model with
  | nil => rfl
  | cons op rest ih =>
    have hrest : ((model.step op).1.run rest).1.outline = (model.step op).1.outline :=
      ih fun o hm => ho o (List.mem_cons_of_mem _ hm)
    rw [Model.run_cons]
    refine hrest.trans ?_
    -- One operation changes attributes, slots or what waits, which are in no outline.
    have hop := ho op List.mem_cons_self
    cases op with
    | requestSync changed patch =>
      rw [Model.step]
      rcases model.requestSync_cases changed patch with he | ⟨_, he⟩ | ⟨_, he⟩ <;> rw [he] <;> rfl
    | status report =>
      simp only [Model.step, Model.handleStatus]
      split
      · rcases model.onIdle_cases with ⟨_, he⟩ | ⟨_, _, _, he⟩ <;> rw [he] <;> rfl
      · rfl
      · rfl
    | applyRemote state =>
      simp only [Model.step, Model.applyRemote, Model.mergeRemote]
      split <;> rfl
    | set changes => rfl
    | sendCustom content => rfl
    | setLastModified view => rfl
    | subscribe view => exact absurd hop Bool.false_ne_true
    | unsubscribe view => exact absurd hop Bool.false_ne_true
    | addView group view => exact absurd hop Bool.false_ne_true
    | removeView view => exact absurd hop Bool.false_ne_true
    | closeComm => exact absurd hop Bool.false_ne_true
    | disconnect => exact absurd hop Bool.false_ne_true

theorem alike_setModel {m : Manager} {comm : CommId} {model model' : Model}
    (hm : m.models.get? comm = some model) (ho : model'.outline = model.outline) :
    Alike m (m.setModel comm model') where
  views := fun _ => rfl
  models := by
    intro c
    rw [setModel, OrdMap.get?_insert_eq]
    split
    · next hc =>
      subst hc
      rw [hm, Option.map_some, Option.map_some, ho]
    · rfl
  nextView := rfl
  throttle := rfl
  reader := rfl

theorem alike_draw {m : Manager} {id : ViewId} {f : View → View}
    (hf : ∀ slot, m.views.get? id = some slot → (f slot.view).model = slot.view.model ∧
      (f slot.view).group = slot.view.group ∧ (f slot.view).children = slot.view.children) :
    Alike m (m.modifyView id f) where
  views := by
    intro x
    rw [modifyView, OrdMap.get?_modify]
    split
    · next hx =>
      subst hx
      cases hs : m.views.get? id with
      | none => rfl
      | some slot =>
        obtain ⟨h1, h2, h3⟩ := hf slot hs
        simp only [Option.map_some, Slot.outline, h1, h2, h3]
    · rfl
  models := fun _ => rfl
  nextView := rfl
  throttle := rfl
  reader := rfl

theorem Around.alike {m m' : Manager} (h : Around m m') : Alike m m' where
  views := fun id => by rw [h.views]
  models := fun comm => by rw [h.models]
  nextView := h.nextView
  throttle := h.throttle
  reader := h.reader

section Kept

variable {m m' : Manager} {made : List (CommId × Attributes)} {frames : List Frame}

theorem Consistent.move (h : m.Consistent) (mv : Move m m' made frames) : m'.Consistent := by
  cases mv with
  | around ha => exact h.of_alike ha.alike
  | ask hm ops ho => exact h.of_alike (alike_setModel hm (run_outline ho))
  | draw f hf => exact h.of_alike (alike_draw hf)
  | place hm hp kind group => exact h.place hp kind group hm
  | remove id => exact h.removeView id
  | close comm => exact h.closeComm comm

theorem Consistent.moves (h : m.Consistent) (mv : Moves m m' made frames) : m'.Consistent := by
  induction mv with
  | refl => exact h
  | head first _ ih => exact ih (h.move first)

/-- A view that is not live and was given its index before does not come back, and indexes only grow. -/
structure Later (m m' : Manager) : Prop where
  throttle : m'.throttle = m.throttle
  next_le : m.nextView ≤ m'.nextView
  dead : ∀ id, id.index < m.nextView → m.views.get? id = none → m'.views.get? id = none

theorem Later.refl (m : Manager) : Later m m := ⟨rfl, Nat.le_refl _, fun _ _ hd => hd⟩

theorem Later.trans {m₁ : Manager} (h : Later m m₁) (k : Later m₁ m') : Later m m' where
  throttle := k.throttle.trans h.throttle
  next_le := Nat.le_trans h.next_le k.next_le
  dead := by
    intro id hid hd
    exact k.dead id (Nat.lt_of_lt_of_le hid h.next_le) (h.dead id hid hd)

theorem Alike.later (ha : Alike m m') : Later m m' where
  throttle := ha.throttle
  next_le := Nat.le_of_eq ha.nextView.symm
  dead := by
    intro id _ hd
    have hv := ha.views id
    rw [hd, Option.map_none] at hv
    exact Option.map_eq_none_iff.mp hv

theorem takeDown_later (m : Manager) (models : Models) (walk : List ViewId) :
    Later m (takeDown { m with models } walk).1 where
  throttle := rfl
  next_le := Nat.le_refl _
  dead := by
    intro id _ hd
    show (m.views.without walk).get? id = none
    rw [Arena.get?_without, hd]
    split <;> rfl

theorem Consistent.later (h : m.Consistent) (mv : Move m m' made frames) : Later m m' := by
  cases mv with
  | around ha => exact ha.alike.later
  | ask hm ops ho => exact (alike_setModel hm (run_outline ho)).later
  | draw f hf => exact (alike_draw hf).later
  | @place comm _ _ hm hp kind group =>
    -- The new view has the index that came next, which is nobody's of before.
    refine ⟨place_throttle .., ?_, fun id hid hd => ?_⟩
    · rw [place_nextView]
      exact Nat.le_succ _
    · have hn := h.next_not_host hp
      have hne : (⟨m.nextView⟩ : ViewId) ≠ id := by
        rintro rfl
        exact absurd hid (Nat.lt_irrefl _)
      rw [get?_place kind comm group hn, if_neg hne, hd, Option.map_none]
  | remove id =>
    rw [removeView_eq h.forest]
    exact takeDown_later m m.models _
  | close comm =>
    cases hm : m.models.get? comm with
    | none =>
      rw [closeComm_of_dead hm]
      exact .refl m
    | some model =>
      rw [closeComm_of_live h.forest hm]
      exact takeDown_later m _ _

theorem Consistent.later_moves (h : m.Consistent) (mv : Moves m m' made frames) : Later m m' := by
  induction mv with
  | refl => exact .refl _
  | head first _ ih => exact (h.later first).trans (ih (h.move first))

end Kept

end Manager

end WidgetSync
