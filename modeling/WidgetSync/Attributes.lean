import WidgetSync.Json.Value
import WidgetSync.Json.Writer
import WidgetSync.Text.Quoted

/-! The synchronized state of a widget: attributes by name, and style overrides by selector and property. -/
namespace WidgetSync

abbrev Attributes := OrdMap String Value

/-- Style overrides: for each selector the values of some properties. -/
abbrev Css := OrdMap String (OrdMap String Value)

/-- Why a value is no widget state. -/
inductive StateError where
  | notObject (state : Value)
  /-- `culprit` stands where the style overrides need an object. -/
  | malformedCss (css culprit : Value)
  deriving DecidableEq

/-- The attribute under which updates carry style overrides. -/
def cssKey : String := "_css"

namespace Value

/-- What kind of value this is, with the value itself where it is short. -/
def kind (v : Value) : String :=
  match v.json with
  | .null => "null"
  | .bool b => "boolean `" ++ String.ofList (Json.Writer.bool b) ++ "`"
  | .num (.int i h) => "integer `" ++ String.ofList (Json.Writer.number (.int i h)) ++ "`"
  | .num (.double d) => "floating point `" ++ String.ofList (Json.Writer.number (.double d)) ++ "`"
  | .str s => "string " ++ Text.quoteDiagnostic s
  | .arr _ => "sequence"
  | .obj _ => "map"

def compact (v : Value) : String := v.json.compact

end Value

def StateError.message : StateError → String
  | .notObject state => "widget state must be an object, got " ++ state.compact
  | .malformedCss css culprit =>
    "malformed _css value " ++ css.compact ++ ": invalid type: " ++ culprit.kind ++ ", expected a map"

namespace Attributes

def ofValue (state : Value) : Except StateError Attributes :=
  match state.asObject? with
  | some members => .ok members
  | none => .error (.notObject state)

def toValue (attributes : Attributes) : Value := .ofObject attributes

def getBool? (attributes : Attributes) (key : String) : Option Bool :=
  attributes.get? key >>= Value.asBool?

def getInt? (attributes : Attributes) (key : String) : Option Int64 :=
  attributes.get? key >>= Value.asInt64?

def getString? (attributes : Attributes) (key : String) : Option String :=
  attributes.get? key >>= Value.asString?

end Attributes

namespace Css

/-- The properties of each selector, or the first value in selector order that is no object. -/
def propertiesOf : List (String × Value) → Except Value (List (String × OrdMap String Value))
  | [] => .ok []
  | (selector, v) :: rest =>
    match v.asObject? with
    | none => .error v
    | some properties => (propertiesOf rest).map fun found => (selector, properties) :: found

def ofValue (css : Value) : Except StateError Css :=
  match css.asObject? with
  | none => .error (.malformedCss css css)
  | some members =>
    match propertiesOf members.entries with
    | .error culprit => .error (.malformedCss css culprit)
    | .ok selectors => .ok (OrdMap.ofList selectors)

def toValue (css : Css) : Value := .ofObject (css.mapValues fun _ properties => .ofObject properties)

/-- The text of a property value: strings stand for themselves. -/
def text (v : Value) : String := v.asString?.getD v.compact

end Css

end WidgetSync
