import WidgetSync.View.Basic
import WidgetSync.Decimal.Layout

/-! What each kind of view shows: the element it starts from, and how a model is drawn into it. -/
namespace WidgetSync

namespace Attributes

def description (a : Attributes) : String := (a.getString? "description").getD ""

def isDisabled (a : Attributes) : Bool := (a.getBool? "disabled").getD false

def boolValue (a : Attributes) : Bool := (a.getBool? "value").getD false

def intValue (a : Attributes) : Int64 := (a.getInt? "value").getD 0

/-- Brings a number under the upper bound and then over the lower one, where the bounds exist. -/
def clamp (a : Attributes) (n : Int64) : Int64 :=
  let n := (a.getInt? "max").elim n fun high => min n high
  (a.getInt? "min").elim n fun low => max n low

/-- Where the value lies between the bounds, in percent. -/
def percent (a : Attributes) : Float :=
  let low := (a.getInt? "min").getD 0
  let high := (a.getInt? "max").getD 100
  if high ≤ low then 0
  else
    let value := min (max a.intValue low) high
    (value.toFloat - low.toFloat) * 100 / (high.toFloat - low.toFloat)

end Attributes

def decimalText (n : Int64) : String := String.ofList (Text.ofInt n.toInt)

/-- Percentages have no exponent and no needless fraction. -/
def percentLayout : Decimal.Layout := ⟨none, false, .up⟩

def percentText (x : Float) : String :=
  match Double.ofFloat? x with
  | some d => String.ofList (d.text percentLayout)
  | none => "NaN"

/-- A character of a caption as markup: blanks do not break, and lines do. -/
def captionMarkup : Char → List Char
  | ' ' => "&nbsp;".toList
  | '\n' => "<br>\n".toList
  | c => [c]

/-- A caption as markup of a button. An empty caption keeps the height. -/
def buttonLabel (caption : String) : String :=
  if caption = "" then "&nbsp;" else String.ofList (caption.toList.flatMap captionMarkup)

namespace ViewKind

/-- A label before a control. -/
def labeled (control : Element) : Element :=
  ((Element.new "div").withClass "widget-hbox-single").withChild
    ((Element.new "div").withClass "widget-hlabel") |>.withChild control

/-- The element that a kind starts from, unless it takes any. -/
def layout? : ViewKind → Option Element
  | .plain => none
  | .button => some ((Element.new "button").withClass "btn")
  | .checkbox => some (labeled ((Element.new "input").withAttribute "type" "checkbox"))
  | .toggleButton => some ((Element.new "div").withChild ((Element.new "button").withClass "btn"))
  | .intText =>
    some (labeled (((Element.new "input").withClass "widget-numeric-text").withAttribute "type" "text"))
  | .intSlider =>
    some ((labeled ((Element.new "div").withClass "slider")).withChild
      ((Element.new "div").withClass "widget-readout"))
  | .progress =>
    some (labeled (((Element.new "div").withClass "progress").withChild
      ((Element.new "div").withClass "progress-bar")))
  | .container => some ((Element.new "div").withClass "widget-container")

/-- The part that styles without a selector are for. -/
def styleTarget? : ViewKind → Option String
  | .toggleButton => some "button"
  | .intText => some "input"
  | .intSlider => some ".slider"
  | .progress => some ".progress"
  | .plain | .button | .checkbox | .container => none

/-- Changes the face of the child at `index`. -/
def onChild (e : Element) (index : Nat) (f : Face → Face) : Element :=
  e.modifyChild index (·.modifyFace f)

/-- An empty label is hidden. -/
def drawLabel (a : Attributes) (e : Element) : Element :=
  onChild e 0 fun f => (f.setHtml a.description).setHidden (a.description = "")

def drawChecked (checked : Bool) (e : Element) : Element := onChild e 1 (·.setFlag "checked" checked)

def drawActive (active : Bool) (e : Element) : Element := onChild e 0 (·.toggleClass "active" active)

def drawText (n : Int64) (e : Element) : Element := onChild e 1 (·.setAttribute "value" (decimalText n))

/-- The slider and its readout. -/
def drawSlider (n : Int64) (e : Element) : Element :=
  onChild (onChild e 1 (·.setAttribute "value" (decimalText n))) 2 (·.setHtml (decimalText n))

/-- A bound that the model does not have is no attribute of the slider. -/
def drawBound (a : Attributes) (f : Face) (key : String) : Face :=
  match a.getInt? key with
  | some bound => f.setAttribute key (decimalText bound)
  | none => f.removeAttribute key

def drawRange (a : Attributes) (f : Face) : Face :=
  (["min", "max", "step"].foldl (drawBound a) f).setAttribute "orientation"
    ((a.getString? "orientation").getD "horizontal") |>.setFlag "disabled" a.isDisabled

/-- Draws the attributes of a model into the element of a kind. -/
def draw (a : Attributes) (e : Element) : ViewKind → Element
  | .plain | .container => e
  | .button => e.modifyFace fun f => (f.setHtml (buttonLabel a.description)).setFlag "disabled" a.isDisabled
  | .checkbox =>
    drawChecked a.boolValue (onChild (drawLabel a e) 1 (·.setFlag "disabled" a.isDisabled))
  | .toggleButton =>
    drawActive a.boolValue
      (onChild e 0 fun f => (f.setHtml a.description).setFlag "disabled" a.isDisabled)
  | .intText =>
    drawText a.intValue (onChild (drawLabel a e) 1 (·.setFlag "disabled" a.isDisabled))
  | .intSlider =>
    drawSlider a.intValue
      (onChild (onChild (drawLabel a e) 1 (drawRange a)) 2
        (·.setHidden !(a.getBool? "readout").getD true))
  | .progress =>
    (drawLabel a e).modifyChild 1 fun bar =>
      onChild bar 0 (·.setStyle "width" (percentText a.percent ++ "%"))

end ViewKind

namespace View

/-- Gives a view the element of its kind. -/
def furnish (v : View) : View :=
  { v with
    element := v.kind.layout?.getD v.element
    styleTarget := v.kind.styleTarget?.or v.styleTarget }

def new (kind : ViewKind) (model : CommId) (group : GroupKey) : View := (blank kind model group).furnish

/-- Draws the model anew. -/
def refresh (v : View) (m : Model) : View :=
  { v with element := v.kind.draw m.attributes v.element }.follow m

end View

end WidgetSync
