import WidgetSync.Proofs.View.Sketch

/-! The visibility of a view over its whole life. Of all that a view is drawn from, only a `visible` that is a boolean
says whether the element is shown; the element is shown or hidden when that changes, and only then. -/
namespace WidgetSync

/-- What may happen to a view: it is drawn anew, or the user acts on it. -/
inductive ViewStep where
  | refresh (m : Model)
  | event (event : UiEvent) (m : Model)

/-- What a view is told of its visibility: what a model that it is drawn from has for it, if that is a boolean. -/
def ViewStep.told? : ViewStep → Option Bool
  | .refresh m => [true, false].find? fun visible => m.attributes.get? "visible" = some (.ofBool visible)
  | .event _ _ => none

theorem ViewStep.told?_refresh (m : Model) : (refresh m).told? = m.attributes.getBool? "visible" := by
  rw [told?]
  simp only [← Attributes.getBool?_eq_some_iff]
  cases m.attributes.getBool? "visible" with
  | none => rfl
  | some visible => cases visible <;> rfl

/-- How a view stands with its visibility: what it was told last, whether its element is hidden, and how often that
was changed. -/
structure Visibility where
  isVisible : Bool
  isHidden : Bool
  changes : Nat
  deriving DecidableEq

namespace Visibility

/-- What was told before makes no difference. -/
def tell (x : Visibility) (visible : Bool) : Visibility :=
  if visible = x.isVisible then x else ⟨visible, !visible, x.changes + 1⟩

/-- How often a sequence changes that starts with `first`. -/
def turns (first : Bool) (rest : List Bool) : Nat := ((first :: rest).zip rest).countP fun p => p.1 ≠ p.2

theorem turns_cons (first second : Bool) (rest : List Bool) :
    turns first (second :: rest) = turns second rest + if first ≠ second then 1 else 0 := by
  rw [turns, List.zip_cons_cons, List.countP_cons, turns]
  simp

theorem tell_eq {x : Visibility} (h : x.isHidden = !x.isVisible) (visible : Bool) :
    x.tell visible = ⟨visible, !visible, x.changes + if x.isVisible ≠ visible then 1 else 0⟩ := by
  rw [tell]
  split
  · next hv =>
    subst hv
    simp [← h]
  · next hv => simp [Ne.symm hv]

/-- What is told one after the other leaves the last of it, and each change of it is counted. -/
theorem foldl_tell {x : Visibility} (h : x.isHidden = !x.isVisible) (told : List Bool) :
    told.foldl tell x =
      ⟨told.getLast?.getD x.isVisible, !told.getLast?.getD x.isVisible, x.changes + turns x.isVisible told⟩ := by
  induction told generalizing x with
  | nil =>
    show x = ⟨x.isVisible, !x.isVisible, x.changes⟩
    rw [← h]
  | cons visible rest ih =>
    rw [List.foldl_cons, tell_eq h, ih rfl, List.getLast?_cons, Option.getD_some, turns_cons, Nat.add_assoc,
      Nat.add_comm (turns visible rest)]

end Visibility

namespace ViewKind

/-- No kind draws whether its element is shown as a whole. -/
theorem isHidden_draw (a : Attributes) (e : Element) (kind : ViewKind) :
    (kind.draw a e).face.isHidden = e.face.isHidden := by
  cases kind with
  | button =>
    show ((e.face.setHtml (buttonLabel a.description)).setFlag "disabled" a.isDisabled).isHidden = _
    rw [Face.setFlag_eq]
    rfl
  | _ => rfl

/-- What the user does changes parts of an element, and the element itself stays as it is. -/
theorem face_react (a : Attributes) (e : Element) (kind : ViewKind) (event : UiEvent) :
    (kind.react a e event).1.face = e.face := by
  cases kind with
  | intText =>
    cases event with
    | input text =>
      rw [react]
      cases Text.int64? (Text.trim text.toList) <;> rfl
    | _ => rfl
  | _ => cases event <;> rfl

end ViewKind

namespace View

def step (v : View) : ViewStep → View
  | .refresh m => v.refresh m
  | .event event m => (v.handleEvent event m).1

def run (v : View) (steps : List ViewStep) : View := steps.foldl step v

def visibility (v : View) : Visibility := ⟨v.isVisible, v.element.face.isHidden, v.visibilityChanges⟩

/-- Styles do not hide an element. -/
theorem visibility_followStyles (v : View) (css : Css) : (v.followStyles css).visibility = v.visibility := by
  have hbare : (v.followStyles css).element.face.bare = v.element.face.bare := by
    rw [← Element.face_bare, bare_followStyles, Element.face_bare]
  have hhidden : (v.followStyles css).element.face.isHidden = v.element.face.isHidden := congrArg (·.isHidden) hbare
  rw [visibility, hhidden]
  rfl

theorem visibility_followVisibility (v : View) (a : Attributes) :
    (v.followVisibility a).visibility = (a.getBool? "visible").elim v.visibility v.visibility.tell := by
  rw [followVisibility]
  cases a.getBool? "visible" with
  | none => rfl
  | some visible =>
    -- Both sides ask whether this is what the view was told before.
    show (if visible = v.isVisible then v else _).visibility = if visible = v.isVisible then v.visibility else _
    rw [apply_ite visibility]
    rfl

theorem visibility_refresh (v : View) (m : Model) :
    (v.refresh m).visibility = (m.attributes.getBool? "visible").elim v.visibility v.visibility.tell := by
  let drawn : View := { v with element := v.kind.draw m.attributes v.element }
  have hdrawn : drawn.visibility = v.visibility := by
    rw [visibility, ViewKind.isHidden_draw]
    rfl
  rw [refresh, follow, visibility_followStyles, visibility_followVisibility, hdrawn]

theorem visibility_handleEvent (v : View) (event : UiEvent) (m : Model) :
    (v.handleEvent event m).1.visibility = v.visibility := by
  rw [handleEvent]
  split
  · rfl
  · rw [visibility, ViewKind.face_react]
    rfl

theorem visibility_step (v : View) (s : ViewStep) :
    (v.step s).visibility = s.told?.elim v.visibility v.visibility.tell := by
  cases s with
  | refresh m =>
    rw [ViewStep.told?_refresh, ← visibility_refresh]
    rfl
  | event event m => exact v.visibility_handleEvent event m

/-- Whatever happens to a view, its visibility follows what it is told. -/
theorem visibility_run (v : View) (steps : List ViewStep) :
    (v.run steps).visibility = (steps.filterMap ViewStep.told?).foldl Visibility.tell v.visibility := by
  induction steps generalizing v with
  | nil => rfl
  | cons s rest ih =>
    have hrun : (v.run (s :: rest)).visibility = ((v.step s).run rest).visibility := rfl
    rw [hrun, ih, visibility_step]
    cases hs : s.told? with
    | none => rw [List.filterMap_cons_none hs, Option.elim_none]
    | some visible => rw [List.filterMap_cons_some hs, Option.elim_some, List.foldl_cons]

theorem visibility_new (kind : ViewKind) (comm : CommId) (group : GroupKey) :
    (new kind comm group).visibility = ⟨true, false, 0⟩ := by
  cases kind <;> rfl

/-- A view is drawn any number of times, from whatever models, and the user acts on it in between. Then it has the
visibility that it was told last, its element is hidden if that is none, and it was shown or hidden once for each change
of what it was told, shown at first. Views that were told the same are alike in this, whatever else they were drawn
from. -/
theorem visibility_follows_models (kind : ViewKind) (comm : CommId) (group : GroupKey) (steps : List ViewStep) :
    let v := (new kind comm group).run steps
    let told := steps.filterMap ViewStep.told?
    v.isVisible = told.getLast?.getD true ∧
      (v.element.face.isHidden = true ↔ v.isVisible = false) ∧
      v.visibilityChanges = ((true :: told).zip told).countP (fun p => p.1 ≠ p.2) ∧
      ∀ (kind' : ViewKind) (comm' : CommId) (group' : GroupKey) (steps' : List ViewStep),
        steps'.filterMap ViewStep.told? = told →
          let v' := (new kind' comm' group').run steps'
          v'.isVisible = v.isVisible ∧ v'.element.face.isHidden = v.element.face.isHidden ∧
            v'.visibilityChanges = v.visibilityChanges := by
  intro v told
  have hrun (kind : ViewKind) (comm : CommId) (group : GroupKey) (steps : List ViewStep) :
      ((new kind comm group).run steps).visibility =
        (steps.filterMap ViewStep.told?).foldl Visibility.tell ⟨true, false, 0⟩ := by
    rw [visibility_run, visibility_new]
  have hv : v.visibility = ⟨told.getLast?.getD true, !told.getLast?.getD true, 0 + Visibility.turns true told⟩ :=
    (hrun kind comm group steps).trans (Visibility.foldl_tell rfl told)
  obtain ⟨hvisible, hhidden, hchanges⟩ := Visibility.mk.inj hv
  refine ⟨hvisible, ?_, ?_, fun kind' comm' group' steps' hsame => ?_⟩
  · rw [hhidden, hvisible]
    simp
  · rw [hchanges, Nat.zero_add]
    rfl
  · have hv' : ((new kind' comm' group').run steps').visibility = v.visibility := by
      rw [hrun, hsame, ← hrun kind comm group steps]
    exact Visibility.mk.inj hv'

end View

end WidgetSync
