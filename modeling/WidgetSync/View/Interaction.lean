import WidgetSync.View.Content
import WidgetSync.Text.Blank

/-! What views make of user events. A view shows the new value at once, before its model knows it. -/
namespace WidgetSync

/-- What a view asks of its model. -/
inductive Interaction where
  /-- Set these attributes and tell the backend. -/
  | sync (changes : Attributes)
  /-- Send application data to the backend. -/
  | custom (content : Value)
  deriving DecidableEq

namespace Interaction

def setValue (value : Value) : Interaction := .sync (OrdMap.ofList [("value", value)])

def clicked : Interaction := .custom (.ofObject (OrdMap.ofList [("event", .ofString "click")]))

end Interaction

namespace Attributes

/-- Syncs the candidate, brought into bounds, unless that is the value already. -/
def propose (a : Attributes) (candidate : Int64) : Option Interaction :=
  if a.clamp candidate = a.intValue then none else some (.setValue (.ofInt64 (a.clamp candidate)))

/-- The negated value. -/
def toggle (a : Attributes) : Interaction := .setValue (.ofBool !a.boolValue)

end Attributes

namespace ViewKind

/-- How the element of a kind changes on an event, and what the view asks for. Text that is no number stays in its
box without effect. -/
def react (a : Attributes) (e : Element) : ViewKind → UiEvent → Element × Option Interaction
  | .button, .click => (e, some .clicked)
  | .checkbox, .click => (drawChecked (!a.boolValue) e, some a.toggle)
  | .toggleButton, .click => (drawActive (!a.boolValue) e, some a.toggle)
  | .intText, .input text =>
    match Text.int64? (Text.trim text.toList) with
    | some n => (drawText (a.clamp n) e, a.propose n)
    | none => (e, none)
  | .intSlider, .slide n => (drawSlider (a.clamp n) e, a.propose n)
  | _, _ => (e, none)

end ViewKind

/-- A view of a disabled model does not react. -/
def View.handleEvent (v : View) (event : UiEvent) (m : Model) : View × Option Interaction :=
  if m.attributes.isDisabled then (v, none)
  else
    let (element, interaction) := v.kind.react m.attributes v.element event
    ({ v with element }, interaction)

end WidgetSync
