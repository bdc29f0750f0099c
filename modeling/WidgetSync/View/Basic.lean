import WidgetSync.Element.Selector
import WidgetSync.Model

/-! Views: a kind, the element it shows, and what all kinds do alike on a refresh, which is to follow the model's
visibility and style overrides. -/
namespace WidgetSync

inductive ViewKind where
  | plain
  | button
  | checkbox
  | toggleButton
  | intText
  | intSlider
  | progress
  | container
  deriving DecidableEq, Repr

namespace ViewKind

def name : ViewKind → String
  | .plain => "WidgetView"
  | .button => "ButtonView"
  | .checkbox => "CheckboxView"
  | .toggleButton => "ToggleButtonView"
  | .intText => "IntTextView"
  | .intSlider => "IntSliderView"
  | .progress => "ProgressView"
  | .container => "ContainerView"

def all : List ViewKind :=
  [.plain, .button, .checkbox, .toggleButton, .intText, .intSlider, .progress, .container]

def ofName? (name : String) : Option ViewKind := all.find? (·.name = name)

end ViewKind

structure View where
  kind : ViewKind
  model : CommId
  group : GroupKey
  /-- The visibility last taken from the model. -/
  isVisible : Bool
  /-- How often the element was shown or hidden. -/
  visibilityChanges : Nat
  element : Element
  /-- Selects the descendants that styles without a selector are for; without it they are for the element. -/
  styleTarget : Option String
  /-- The hosted views, in the order in which they are displayed. -/
  children : List ViewId
  deriving DecidableEq

namespace View

/-- A view before its kind has made its element. -/
def blank (kind : ViewKind) (model : CommId) (group : GroupKey) : View where
  kind
  model
  group
  isVisible := true
  visibilityChanges := 0
  element := .new "div"
  styleTarget := none
  children := []

/-- Only containers host other views. -/
def isHost (v : View) : Bool := v.kind = .container

def addChild (v : View) (child : ViewId) : View := { v with children := v.children ++ [child] }

def removeChild (v : View) (child : ViewId) : View :=
  { v with children := v.children.filter (· ≠ child) }

/-- Shows or hides the element when the model's `visible` is a boolean other than before. -/
def followVisibility (v : View) (attributes : Attributes) : View :=
  match attributes.getBool? "visible" with
  | none => v
  | some visible =>
    if visible = v.isVisible then v
    else
      { v with
        isVisible := visible
        element := v.element.modifyFace (·.setHidden !visible)
        visibilityChanges := v.visibilityChanges + 1 }

/-- Overwrites styles with property values. -/
def overrideStyles (properties : OrdMap String Value) (styles : OrdMap String String) : OrdMap String String :=
  styles.merge (properties.mapValues fun _ value => Css.text value)

/-- Overwrites the styles of the elements that a selector is for. -/
def applyStyles (styleTarget : Option String) (e : Element) (selector : String)
    (properties : OrdMap String Value) : Element :=
  if selector ≠ "" then e.restyleMatches selector (overrideStyles properties)
  else
    match styleTarget with
    | some target => e.restyleMatches target (overrideStyles properties)
    | none => e.modifyFace fun f => { f with styles := overrideStyles properties f.styles }

/-- Applies the style overrides, selector by selector in their order. -/
def followStyles (v : View) (css : Css) : View :=
  { v with element := css.entries.foldl (fun e p => applyStyles v.styleTarget e p.1 p.2) v.element }

/-- What every kind does on a refresh. -/
def follow (v : View) (m : Model) : View := (v.followVisibility m.attributes).followStyles m.css

end View

end WidgetSync
