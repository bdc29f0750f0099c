import WidgetSync.Model

/-! The built-in kinds of model and their initial attributes. -/
namespace WidgetSync

inductive ModelKind where
  | plain
  | button
  | bool
  | int
  | boundedInt
  | container
  deriving DecidableEq, Repr

namespace ModelKind

def name : ModelKind → String
  | .plain => "WidgetModel"
  | .button => "ButtonWidgetModel"
  | .bool => "BoolWidgetModel"
  | .int => "IntWidgetModel"
  | .boundedInt => "BoundedIntWidgetModel"
  | .container => "ContainerWidgetModel"

def all : List ModelKind := [.plain, .button, .bool, .int, .boundedInt, .container]

def ofName? (name : String) : Option ModelKind := all.find? (·.name = name)

def described : List (String × Value) := [("description", .ofString ""), ("disabled", .ofBool false)]

def defaults : ModelKind → Attributes
  | .plain | .container => ∅
  | .button => .ofList described
  | .bool => .ofList (("value", .ofBool false) :: described)
  | .int => .ofList (("value", .ofInt64 0) :: described)
  | .boundedInt => .ofList (("value", .ofInt64 0) :: ("min", .ofInt64 0) :: ("max", .ofInt64 100) ::
      ("step", .ofInt64 1) :: ("readout", .ofBool true) :: described)

def model (kind : ModelKind) (comm : Comm) : Model :=
  (Model.new kind.name comm).withDefaults kind.defaults

end ModelKind

end WidgetSync
