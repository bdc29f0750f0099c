import WidgetSync.Proofs.Attributes
import WidgetSync.Proofs.Element.Bare

/-! What a view has drawn, its styles apart. To draw a model erases all that was drawn before it. -/
namespace WidgetSync

namespace Face

/-- Gives an attribute a value, or takes it away. -/
def put (f : Face) (name : String) (value : Option String) : Face :=
  { f with attributes := value.elim (f.attributes.erase name) (f.attributes.insert name) }

def putAll (f : Face) (marks : List (String × Option String)) : Face :=
  marks.foldl (fun f mark => f.put mark.1 mark.2) f

variable {f : Face} {name other : String} {value : Option String}

theorem get?_put (f : Face) (name : String) (value : Option String) (key : String) :
    (f.put name value).attributes.get? key = if name = key then value else f.attributes.get? key := by
  cases value with
  | none => exact OrdMap.get?_erase _ _ _
  | some text => exact OrdMap.get?_insert_eq _ _ _ _

theorem attributes_ext {g : Face} (h : ∀ key, f.attributes.get? key = g.attributes.get? key)
    (hr : { f with attributes := ∅ } = { g with attributes := ∅ }) : f = g := by
  have ha : f.attributes = g.attributes := OrdMap.ext h
  cases f
  cases g
  simp_all

theorem put_put_self (f : Face) (name : String) (old new : Option String) :
    (f.put name old).put name new = f.put name new := by
  refine attributes_ext (fun key => ?_) rfl
  rw [get?_put, get?_put, get?_put]
  split <;> rfl

theorem put_comm (h : name ≠ other) (f : Face) (x y : Option String) :
    (f.put name x).put other y = (f.put other y).put name x := by
  refine attributes_ext (fun key => ?_) rfl
  simp only [get?_put]
  by_cases hk : name = key
  · have ho : other ≠ key := fun he => h (hk.trans he.symm)
    simp [hk, ho]
  · simp [hk]

theorem putAll_cons (f : Face) (mark : String × Option String) (marks : List (String × Option String)) :
    f.putAll (mark :: marks) = (f.put mark.1 mark.2).putAll marks := rfl

/-- What is marked anew leaves no trace of an earlier mark. -/
theorem put_putAll {marks : List (String × Option String)} (h : name ∈ marks.map Prod.fst) :
    (f.put name value).putAll marks = f.putAll marks := by
  induction marks generalizing f with
  | nil => exact absurd h List.not_mem_nil
  | cons mark rest ih =>
    rw [putAll_cons, putAll_cons]
    by_cases hn : name = mark.1
    · rw [hn, put_put_self]
    · rw [put_comm hn]
      exact ih (List.mem_of_ne_of_mem hn h)

theorem putAll_putAll {old new : List (String × Option String)}
    (h : old.map Prod.fst ⊆ new.map Prod.fst) : (f.putAll old).putAll new = f.putAll new := by
  induction old generalizing f with
  | nil => rfl
  | cons mark rest ih =>
    obtain ⟨hmark, hrest⟩ := List.cons_subset.mp h
    rw [putAll_cons, ih hrest, put_putAll hmark]

theorem setHtml_putAll (f : Face) (marks : List (String × Option String)) (html : String) :
    (f.putAll marks).setHtml html = (f.setHtml html).putAll marks := by
  induction marks generalizing f with
  | nil => rfl
  | cons mark rest ih => exact ih (f.put mark.1 mark.2)

/-- A flag as a mark. -/
def flag (name : String) (on : Bool) : String × Option String := (name, if on then some name else none)

theorem setFlag_eq (f : Face) (name : String) (on : Bool) :
    f.setFlag name on = f.put name (flag name on).2 := by
  cases on <;> rfl

theorem setHtml_toggleClass (f : Face) (on : Bool) (html : String) :
    (f.toggleClass name on).setHtml html = (f.setHtml html).toggleClass name on := by
  cases on with
  | false => rfl
  | true =>
    have hc : (f.setHtml html).hasClass name = f.hasClass name := rfl
    simp only [toggleClass, if_true, addClass, hc]
    split <;> rfl

theorem put_toggleClass (f : Face) (on : Bool) (key : String) (value : Option String) :
    (f.toggleClass name on).put key value = (f.put key value).toggleClass name on := by
  cases on with
  | false => rfl
  | true =>
    have hc : (f.put key value).hasClass name = f.hasClass name := rfl
    simp only [toggleClass, if_true, addClass, hc]
    split <;> rfl

theorem putAll_toggleClass (f : Face) (on : Bool) (marks : List (String × Option String)) :
    (f.toggleClass name on).putAll marks = (f.putAll marks).toggleClass name on := by
  induction marks generalizing f with
  | nil => rfl
  | cons mark rest ih =>
    rw [putAll_cons, put_toggleClass, ih]
    rfl

section Classes

variable (h : f.hasClass name = false)
include h

theorem removeClass_eq_self : f.removeClass name = f := by
  have hn : name ∉ f.classes := by simpa [hasClass] using h
  have hf : f.classes.filter (· ≠ name) = f.classes :=
    List.filter_eq_self.mpr fun c hc => decide_eq_true fun he => hn (he ▸ hc)
  rw [removeClass, hf]

theorem hasClass_addClass : (f.addClass name).hasClass name = true := by
  rw [addClass, if_neg (by rw [h]; decide)]
  simp [hasClass]

theorem removeClass_addClass : (f.addClass name).removeClass name = f := by
  have hf : f.classes.filter (· ≠ name) = f.classes := congrArg Face.classes (removeClass_eq_self h)
  have ha : (f.classes ++ [name]).filter (· ≠ name) = f.classes := by
    rw [List.filter_append, hf]
    simp
  simp only [addClass, h, Bool.false_eq_true, if_false, removeClass, ha]

/-- A class that was not there to begin with is as it was toggled last. -/
theorem toggleClass_toggleClass (old new : Bool) :
    (f.toggleClass name old).toggleClass name new = f.toggleClass name new := by
  cases old with
  | false =>
    have hold : f.toggleClass name false = f := removeClass_eq_self h
    rw [hold]
  | true =>
    cases new with
    | false => exact (removeClass_addClass h).trans (removeClass_eq_self h).symm
    | true =>
      show (f.addClass name).addClass name = f.addClass name
      rw [addClass, if_pos (hasClass_addClass h)]

end Classes

end Face

namespace ViewKind

open Face

def layout (kind : ViewKind) : Element := kind.layout?.getD (.new "div")

def box : Face := (Face.new "div").addClass "widget-hbox-single"

def label : Face := (Face.new "div").addClass "widget-hlabel"

/-- The part that a user takes hold of, as a layout has it. -/
def control : ViewKind → Face
  | .button | .toggleButton => (Face.new "button").addClass "btn"
  | .checkbox => (Face.new "input").setAttribute "type" "checkbox"
  | .intText => ((Face.new "input").addClass "widget-numeric-text").setAttribute "type" "text"
  | .intSlider => (Face.new "div").addClass "slider"
  | .progress => (Face.new "div").addClass "progress"
  | .plain | .container => Face.new "div"

theorem layout_button : layout .button = .node (control .button) [] := rfl

theorem layout_checkbox :
    layout .checkbox = .node box [.node label [], .node (control .checkbox) []] := rfl

theorem layout_toggleButton :
    layout .toggleButton = .node (Face.new "div") [.node (control .toggleButton) []] := rfl

theorem layout_intText : layout .intText = .node box [.node label [], .node (control .intText) []] := rfl

theorem layout_intSlider : layout .intSlider = .node box [.node label [], .node (control .intSlider) [],
    .node ((Face.new "div").addClass "widget-readout") []] := rfl

/-- Draws a model, but no styles. -/
def sketch (a : Attributes) (e : Element) : ViewKind → Element
  | .progress => drawLabel a e
  | kind => kind.draw a e

/-- What a model marks a control with. -/
def marks (a : Attributes) : ViewKind → List (String × Option String)
  | .button | .toggleButton => [flag "disabled" a.isDisabled]
  | .checkbox => [flag "disabled" a.isDisabled, flag "checked" a.boolValue]
  | .intText => [flag "disabled" a.isDisabled, ("value", some (decimalText a.intValue))]
  | .intSlider => [("min", (a.getInt? "min").map decimalText), ("max", (a.getInt? "max").map decimalText),
      ("step", (a.getInt? "step").map decimalText),
      ("orientation", some ((a.getString? "orientation").getD "horizontal")),
      flag "disabled" a.isDisabled, ("value", some (decimalText a.intValue))]
  | .plain | .progress | .container => []

/-- A label with the description of a model. -/
def caption (a : Attributes) (f : Face) : Face :=
  (f.setHtml a.description).setHidden (a.description = "")

/-- A readout with the value of a model. -/
def readout (a : Attributes) (f : Face) : Face :=
  (f.setHidden !(a.getBool? "readout").getD true).setHtml (decimalText a.intValue)

section Shapes

variable (a : Attributes) (root text part : Face) (below beneath rest : List Element)

theorem sketch_button : sketch a (.node part below) .button =
    .node ((part.setHtml (buttonLabel a.description)).putAll (marks a .button)) below := by
  simp only [sketch, draw, Element.modifyFace, setFlag_eq]
  rfl

theorem sketch_checkbox : sketch a (.node root [.node text below, .node part beneath]) .checkbox =
    .node root [.node (caption a text) below, .node (part.putAll (marks a .checkbox)) beneath] := by
  simp only [sketch, draw, drawChecked, drawLabel, setFlag_eq]
  rfl

theorem sketch_toggleButton : sketch a (.node root [.node part below]) .toggleButton =
    .node root [.node (((part.setHtml a.description).putAll (marks a .toggleButton)).toggleClass "active"
      a.boolValue) below] := by
  simp only [sketch, draw, drawActive, setFlag_eq]
  rfl

theorem sketch_intText : sketch a (.node root [.node text below, .node part beneath]) .intText =
    .node root [.node (caption a text) below, .node (part.putAll (marks a .intText)) beneath] := by
  simp only [sketch, draw, drawText, drawLabel, setFlag_eq]
  rfl

theorem drawBound_eq (f : Face) (key : String) :
    drawBound a f key = f.put key ((a.getInt? key).map decimalText) := by
  rw [drawBound]
  cases a.getInt? key <;> rfl

theorem drawRange_eq (f : Face) : (drawRange a f).setAttribute "value" (decimalText a.intValue) =
    f.putAll (marks a .intSlider) := by
  simp only [drawRange, List.foldl_cons, List.foldl_nil, drawBound_eq, setFlag_eq]
  rfl

theorem sketch_intSlider (shown : Face) :
    sketch a (.node root [.node text below, .node part beneath, .node shown rest]) .intSlider =
      .node root [.node (caption a text) below, .node (part.putAll (marks a .intSlider)) beneath,
        .node (readout a shown) rest] := by
  rw [← drawRange_eq]
  rfl

end Shapes

theorem putAll_marks (a b : Attributes) (kind : ViewKind) (f : Face) :
    (f.putAll (marks b kind)).putAll (marks a kind) = f.putAll (marks a kind) := by
  have hkeys : (marks b kind).map Prod.fst = (marks a kind).map Prod.fst := by cases kind <;> rfl
  exact putAll_putAll fun _ hk => hkeys ▸ hk

/-- To draw a model erases what was drawn of an earlier one. -/
theorem sketch_sketch (a b : Attributes) (kind : ViewKind) :
    kind.sketch a (kind.sketch b kind.layout) = kind.sketch a kind.layout := by
  cases kind with
  | plain => rfl
  | container => rfl
  | progress => rfl
  | button =>
    simp only [layout_button, sketch_button, setHtml_putAll, putAll_marks]
    rfl
  | checkbox =>
    simp only [layout_checkbox, sketch_checkbox, putAll_marks]
    rfl
  | toggleButton =>
    -- The mark of an active button goes off again, since a new one does not have it.
    have hnew : (((control .toggleButton).setHtml a.description).putAll
        (marks a .toggleButton)).hasClass "active" = false := rfl
    simp only [layout_toggleButton, sketch_toggleButton, setHtml_toggleClass, setHtml_putAll,
      putAll_toggleClass, putAll_marks]
    rw [← toggleClass_toggleClass hnew b.boolValue a.boolValue]
    rfl
  | intText =>
    simp only [layout_intText, sketch_intText, putAll_marks]
    rfl
  | intSlider =>
    simp only [layout_intSlider, sketch_intSlider, putAll_marks]
    rfl

/-- The element itself may be hidden before or after. -/
theorem sketch_setHidden (a : Attributes) (e : Element) (isHidden : Bool) (kind : ViewKind) :
    kind.sketch a (e.modifyFace (·.setHidden isHidden)) =
      (kind.sketch a e).modifyFace (·.setHidden isHidden) := by
  cases kind with
  | button =>
    cases e with
    | node face children =>
      show sketch a (.node (face.setHidden isHidden) children) .button = _
      rw [sketch_button, sketch_button]
      rfl
  | _ => cases e; rfl

theorem styleBlind_drawRange (a : Attributes) : StyleBlind (drawRange a) := by
  intro f
  simp only [drawRange, List.foldl_cons, List.foldl_nil, drawBound_eq]
  exact styleBlind_setFlag "disabled" a.isDisabled _

theorem bare_drawLabel (a : Attributes) (e : Element) : (drawLabel a e).bare = drawLabel a e.bare :=
  Element.bare_onChild (StyleBlind.comp (styleBlind_setHidden _) (styleBlind_setHtml _)) e 0

/-- Styles are not read when a model is drawn, and only the bar of a progress view is given one. -/
theorem bare_draw (a : Attributes) (e : Element) (kind : ViewKind) :
    (kind.draw a e).bare = kind.sketch a e.bare := by
  have hdisabled : StyleBlind (·.setFlag "disabled" a.isDisabled) := styleBlind_setFlag _ _
  cases kind with
  | plain => rfl
  | container => rfl
  | button => exact Element.bare_modifyFace (hdisabled.comp (styleBlind_setHtml _)) e
  | checkbox =>
    rw [draw, drawChecked, Element.bare_onChild (styleBlind_setFlag _ _),
      Element.bare_onChild hdisabled, bare_drawLabel]
    rfl
  | toggleButton =>
    rw [draw, drawActive, Element.bare_onChild (styleBlind_toggleClass _ _),
      Element.bare_onChild (hdisabled.comp (styleBlind_setHtml _))]
    rfl
  | intText =>
    rw [draw, drawText, Element.bare_onChild (styleBlind_setAttribute _ _),
      Element.bare_onChild hdisabled, bare_drawLabel]
    rfl
  | intSlider =>
    rw [draw, drawSlider, Element.bare_onChild (styleBlind_setHtml _),
      Element.bare_onChild (styleBlind_setAttribute _ _), Element.bare_onChild (styleBlind_setHidden _),
      Element.bare_onChild (styleBlind_drawRange a), bare_drawLabel]
    rfl
  | progress =>
    have hstyle (f : Face) : (f.setStyle "width" (percentText a.percent ++ "%")).bare = f.bare := rfl
    have hbar (bar : Element) : (onChild bar 0 (·.setStyle "width" (percentText a.percent ++ "%"))).bare =
        bar.bare := bar.bare_modifyChild_of_bare (Element.bare_modifyFace_of_bare hstyle) 0
    rw [draw, Element.bare_modifyChild_of_bare hbar, bare_drawLabel]
    rfl

end ViewKind

namespace View

open ViewKind

variable {v : View} {a : Attributes}

/-- Apart from styles a view looks like a new one into which the attributes are drawn, shown or hidden. -/
def Shows (v : View) (a : Attributes) : Prop :=
  v.element.bare = (v.kind.sketch a v.kind.layout).modifyFace (·.setHidden !v.isVisible)

/-- Whatever is drawn into a view, it will look like a new one. -/
def Ready (v : View) : Prop :=
  ∃ e, v.element.bare = e.modifyFace (·.setHidden !v.isVisible) ∧
    ∀ a, v.kind.sketch a e = v.kind.sketch a v.kind.layout

theorem new_ready (kind : ViewKind) (model : CommId) (group : GroupKey) : (new kind model group).Ready :=
  ⟨kind.layout, by cases kind <;> rfl, fun _ => rfl⟩

theorem Shows.ready (h : v.Shows a) : v.Ready := ⟨_, h, fun a' => sketch_sketch a' a v.kind⟩

theorem Shows.followVisibility (h : v.Shows a) (attributes : Attributes) :
    (v.followVisibility attributes).Shows a := by
  rw [View.followVisibility]
  split
  · exact h
  · next visible _ =>
    split
    · exact h
    · -- The element was hidden or not, and what it was does not matter.
      have hb : (v.element.modifyFace (·.setHidden !visible)).bare =
          v.element.bare.modifyFace (·.setHidden !visible) :=
        Element.bare_modifyFace (Face.styleBlind_setHidden _) _
      show (v.element.modifyFace (·.setHidden !visible)).bare = _
      rw [hb, h]
      rfl

theorem Shows.followStyles (h : v.Shows a) (css : Css) : (v.followStyles css).Shows a :=
  (v.bare_followStyles css).trans h

theorem kind_refresh (v : View) (m : Model) : (v.refresh m).kind = v.kind := by
  rw [refresh, follow, followStyles, followVisibility]
  split
  · rfl
  · split <;> rfl

theorem styleTarget_refresh (v : View) (model : Model) : (v.refresh model).styleTarget = v.styleTarget := by
  rw [refresh, follow, followStyles, followVisibility]
  split
  · rfl
  · split <;> rfl

theorem isVisible_refresh (v : View) (model : Model) :
    (v.refresh model).isVisible = (model.attributes.getBool? "visible").getD v.isVisible := by
  simp only [refresh, follow, followStyles, followVisibility]
  cases model.attributes.getBool? "visible" with
  | none => rfl
  | some visible =>
    simp only [Option.getD_some]
    split
    · next hv => exact hv.symm
    · rfl

theorem Ready.bare_draw (h : v.Ready) (a : Attributes) : (v.kind.draw a v.element).bare =
    (v.kind.sketch a v.kind.layout).modifyFace (·.setHidden !v.isVisible) := by
  obtain ⟨e, he, hany⟩ := h
  rw [ViewKind.bare_draw, he, sketch_setHidden, hany]

/-- A view that is drawn anew shows its model. -/
theorem Ready.refresh (h : v.Ready) (m : Model) : (v.refresh m).Shows m.attributes := by
  let drawn : View := { v with element := v.kind.draw m.attributes v.element }
  have hdrawn : drawn.Shows m.attributes := h.bare_draw m.attributes
  exact (hdrawn.followVisibility m.attributes).followStyles m.css

end View

end WidgetSync
