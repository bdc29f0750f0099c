import WidgetSync.View.Content
import Mathlib.Data.List.Basic

/-! Elements without their styles. Style overrides reach any node that a selector names, and they change nothing but
styles, so that the rest of an element is what its view has drawn. -/
namespace WidgetSync

namespace Face

def bare (f : Face) : Face := { f with styles := ∅ }

/-- A change that neither reads nor makes styles. -/
def StyleBlind (f : Face → Face) : Prop := ∀ x, (f x).bare = f x.bare

theorem StyleBlind.comp {f g : Face → Face} (hg : StyleBlind g) (hf : StyleBlind f) :
    StyleBlind fun x => g (f x) := by
  intro x
  rw [hg, hf]

theorem styleBlind_setHtml (html : String) : StyleBlind (·.setHtml html) := fun _ => rfl

theorem styleBlind_setHidden (isHidden : Bool) : StyleBlind (·.setHidden isHidden) := fun _ => rfl

theorem styleBlind_setAttribute (name value : String) : StyleBlind (·.setAttribute name value) :=
  fun _ => rfl

theorem styleBlind_setFlag (name : String) (on : Bool) : StyleBlind (·.setFlag name on) := by
  intro x
  cases on <;> rfl

theorem styleBlind_toggleClass (name : String) (on : Bool) : StyleBlind (·.toggleClass name on) := by
  intro x
  cases on with
  | false => rfl
  | true =>
    have hc : x.bare.hasClass name = x.hasClass name := rfl
    simp only [toggleClass, if_true, addClass, hc]
    split <;> rfl

end Face

namespace Element

mutual

/-- The element without the styles of all its nodes. -/
def bare : Element → Element
  | .node face children => .node face.bare (bareAll children)
termination_by structural e => e

def bareAll : List Element → List Element
  | [] => []
  | e :: rest => bare e :: bareAll rest
termination_by structural es => es

end

theorem bareAll_eq_map (es : List Element) : bareAll es = es.map bare := by
  induction es with
  | nil => rfl
  | cons e rest ih => rw [bareAll, ih, List.map_cons]

theorem face_bare (e : Element) : e.bare.face = e.face.bare := by
  cases e
  rfl

theorem children_bare (e : Element) : e.bare.children = e.children.map bare := by
  cases e with
  | node face children => exact bareAll_eq_map children

theorem at?_bare (e : Element) (path : List Nat) : e.bare.at? path = (e.at? path).map bare := by
  induction path generalizing e with
  | nil => rfl
  | cons i path ih =>
    rw [at?, at?, children_bare, List.getElem?_map]
    cases e.children[i]? with
    | none => rfl
    | some child => exact ih child

/-! ### Drawing -/

theorem bare_modifyFace {f : Face → Face} (h : Face.StyleBlind f) (e : Element) :
    (e.modifyFace f).bare = e.bare.modifyFace f := by
  cases e with
  | node face children => exact congrArg (Element.node · _) (h face)

/-- What changes styles only cannot be told from what changes nothing. -/
theorem bare_modifyFace_of_bare {f : Face → Face} (h : ∀ x, (f x).bare = x.bare) (e : Element) :
    (e.modifyFace f).bare = e.bare := by
  cases e with
  | node face children => exact congrArg (Element.node · _) (h face)

theorem bareAll_modify {f g : Element → Element} (h : ∀ x, (f x).bare = g x.bare) (es : List Element)
    (index : Nat) : bareAll (es.modify index f) = (bareAll es).modify index g := by
  induction es generalizing index with
  | nil => cases index <;> rfl
  | cons e rest ih =>
    cases index with
    | zero =>
      rw [List.modify_zero_cons, bareAll, bareAll, List.modify_zero_cons, h]
    | succ index =>
      rw [List.modify_succ_cons, bareAll, bareAll, List.modify_succ_cons, ih]

theorem bare_modifyChild {f g : Element → Element} (h : ∀ x, (f x).bare = g x.bare) (e : Element)
    (index : Nat) : (e.modifyChild index f).bare = e.bare.modifyChild index g := by
  cases e with
  | node face children => exact congrArg (Element.node _) (bareAll_modify h children index)

theorem bare_onChild {f : Face → Face} (h : Face.StyleBlind f) (e : Element) (index : Nat) :
    (ViewKind.onChild e index f).bare = ViewKind.onChild e.bare index f :=
  bare_modifyChild (bare_modifyFace h) e index

theorem bare_modifyChild_of_bare {f : Element → Element} (h : ∀ x, (f x).bare = x.bare) (e : Element)
    (index : Nat) : (e.modifyChild index f).bare = e.bare := by
  have hf : ∀ x, (f x).bare = id x.bare := h
  rw [bare_modifyChild hf, modifyChild, List.modify_id]
  cases e
  rfl

/-! ### Style overrides -/

section Visit

variable {σ : Type} (s : Selector) (visitor : σ → Element → σ × OrdMap String String)

mutual

theorem bare_visit (state : σ) : (e : Element) → (visit s visitor state e).2.bare = e.bare
  | .node face children => by
    rw [visit]
    split
    · -- The node has new styles, and its children may have.
      exact congrArg (Element.node face.bare) (bareAll_visitAll _ children)
    · exact congrArg (Element.node face.bare) (bareAll_visitAll state children)
termination_by structural e => e

theorem bareAll_visitAll (state : σ) :
    (es : List Element) → bareAll (visitAll s visitor state es).2 = bareAll es
  | [] => rfl
  | e :: rest => by
    rw [visitAll, bareAll, bareAll, bare_visit state e, bareAll_visitAll _ rest]
termination_by structural es => es

end

end Visit

theorem bare_restyleMatches (e : Element) (selector : String)
    (restyle : OrdMap String String → OrdMap String String) :
    (e.restyleMatches selector restyle).bare = e.bare := by
  cases e with
  | node face children => exact congrArg (Element.node face.bare) (bareAll_visitAll _ _ _ children)

end Element

namespace View

theorem bare_applyStyles (styleTarget : Option String) (e : Element) (selector : String)
    (properties : OrdMap String Value) :
    (applyStyles styleTarget e selector properties).bare = e.bare := by
  by_cases hs : selector = ""
  · subst hs
    cases styleTarget with
    | some target => exact e.bare_restyleMatches target _
    | none => exact e.bare_modifyFace_of_bare fun _ => rfl
  · simp only [applyStyles, ne_eq, hs, not_false_eq_true, if_true]
    exact e.bare_restyleMatches selector _

theorem bare_followStyles (v : View) (css : Css) : (v.followStyles css).element.bare = v.element.bare := by
  rw [followStyles]
  generalize css.entries = overrides
  generalize v.element = e
  induction overrides generalizing e with
  | nil => rfl
  | cons p rest ih =>
    rw [List.foldl_cons]
    exact (ih _).trans (bare_applyStyles v.styleTarget e p.1 p.2)

/-- To be shown or hidden is a matter of the element as a whole. -/
theorem bare_followVisibility (v : View) (attributes : Attributes) : ∃ isHidden,
    (v.followVisibility attributes).element.bare = v.element.bare.modifyFace (·.setHidden isHidden) := by
  have hsame : v.element.bare = v.element.bare.modifyFace (·.setHidden v.element.bare.face.isHidden) := by
    cases v.element.bare
    rfl
  rw [followVisibility]
  split
  · exact ⟨_, hsame⟩
  · next visible _ =>
    split
    · exact ⟨_, hsame⟩
    · exact ⟨!visible, Element.bare_modifyFace (Face.styleBlind_setHidden _) v.element⟩

/-- Following a model changes styles, and whether the element as a whole is hidden, and nothing else. -/
theorem bare_follow (v : View) (m : Model) : ∃ isHidden,
    (v.follow m).element.bare = v.element.bare.modifyFace (·.setHidden isHidden) := by
  rw [follow, bare_followStyles]
  exact v.bare_followVisibility m.attributes

end View

end WidgetSync
