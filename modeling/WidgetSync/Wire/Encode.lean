import WidgetSync.Message

/-! The JSON form of messages. A choice between several shapes is told by one member, which comes first. -/
namespace WidgetSync

namespace Wire

/-- An index, as long as 64 bits hold it. -/
def natural (n : Nat) : Json :=
  if h : n < 0x10000000000000000 then .num (.int n (by omega)) else .null

def nullable {α : Type} (encode : α → Json) : Option α → Json
  | none => .null
  | some a => encode a

end Wire

open Wire

def CommId.toJson (comm : CommId) : Json := .str comm.name

def ViewId.toJson (view : ViewId) : Json := natural view.index

def Attributes.toJson (attributes : Attributes) : Json := attributes.toValue.json

def GroupKey.toJson : GroupKey → Json
  | .cell index => .obj [("cell", natural index)]
  | .detached => .str "detached"

def ExecutionState.toJson (state : ExecutionState) : Json := .str state.name

def Callbacks.toJson (callbacks : Callbacks) : Json :=
  .obj [("output", nullable GroupKey.toJson callbacks.output)]

def SyncMessage.toJson : SyncMessage → Json
  | .update data => .obj [("method", .str "update"), ("data", data.toJson)]
  | .patch data => .obj [("method", .str "patch"), ("data", data.toJson)]
  | .custom content => .obj [("method", .str "custom"), ("content", content.json)]

def Frame.toJson : Frame → Json
  | .message comm data callbacks =>
    .obj [("type", .str "comm_msg"), ("comm_id", comm.toJson), ("data", data.toJson),
      ("callbacks", callbacks.toJson)]
  | .close comm => .obj [("type", .str "comm_close"), ("comm_id", comm.toJson)]

def ModelMessage.toJson : ModelMessage → Json
  | .display viewName parent cell =>
    .obj [("method", .str "display"), ("view_name", .str viewName),
      ("parent", nullable CommId.toJson parent), ("cell_index", nullable natural cell)]
  | .update state => .obj [("method", .str "update"), ("state", state.toJson)]

def StatusMessage.toJson (status : StatusMessage) : Json :=
  .obj [("execution_state", status.state.toJson)]

/-- The members of an opening request. -/
def CommOpen.members (request : CommOpen) : List (String × Json) :=
  [("comm_id", request.comm.toJson), ("target_name", .str request.target)]

def CommOpen.toJson (request : CommOpen) : Json := .obj request.members

def CommMessage.members (message : CommMessage) : List (String × Json) :=
  [("comm_id", message.comm.toJson), ("data", message.data.json),
    ("parent_msg_id", nullable .str message.parentMessage)]

def CommMessage.toJson (message : CommMessage) : Json := .obj message.members

def UiEvent.toJson : UiEvent → Json
  | .click => .obj [("kind", .str "click")]
  | .input text => .obj [("kind", .str "input"), ("value", .str text)]
  | .slide position => .obj [("kind", .str "slide"), ("value", .num (.ofInt64 position))]

def SessionEvent.toJson : SessionEvent → Json
  | .execute cell message =>
    .obj [("type", .str "execute"), ("cell_index", natural cell), ("msg_id", .str message)]
  | .commOpen request => .obj (("type", .str "comm_open") :: request.members)
  | .commMessage message => .obj (("type", .str "comm_msg") :: message.members)
  | .commClose comm => .obj [("type", .str "comm_close"), ("comm_id", comm.toJson)]
  | .status comm report =>
    .obj [("type", .str "status"), ("comm_id", comm.toJson),
      ("execution_state", report.state.toJson)]
  | .output comm text =>
    .obj [("type", .str "output"), ("comm_id", comm.toJson), ("text", .str text)]
  | .ui view event =>
    .obj [("type", .str "ui"), ("view", view.toJson), ("event", event.toJson)]
  | .removeView view => .obj [("type", .str "remove_view"), ("view", view.toJson)]

end WidgetSync
