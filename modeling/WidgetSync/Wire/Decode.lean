import WidgetSync.Message

/-! Reading messages from their JSON form.
A record is an object, whose members may come in any order beside unknown ones, or the array of its fields. A choice
between several shapes is told by one member or by the first item. -/
namespace WidgetSync

namespace Wire

/-- Whether a value is the message itself or stands within another one, where more spellings pass. -/
inductive Place where
  | outer
  | inner
  deriving DecidableEq

def string? : Json → Option String
  | .str s => some s
  | _ => none

/-- A whole number of 64 bits without sign. -/
def word? : Json → Option Nat
  | .num n => n.asWord?
  | _ => none

def int64? : Json → Option Int64
  | .num n => n.asInt64?
  | _ => none

def optional? {α : Type} (decode : Json → Option α) : Json → Option (Option α)
  | .null => some none
  | j => (decode j).map some

/-- A field that may be left out. -/
def orMissing? {α : Type} (decode : Json → Option α) : Option Json → Option (Option α)
  | none => some none
  | some j => optional? decode j

/-- The member of one name; having two of them is a fault. -/
def field? (members : List (String × Json)) (name : String) : Option (Option Json) :=
  match members.filter (·.1 = name) with
  | [] => some none
  | [(_, j)] => some (some j)
  | _ => none

/-- The fields of a record, in the order of their names, where they are present. -/
def fields? (names : List String) : Json → Option (List (Option Json))
  | .obj members => names.mapM (field? members)
  | .arr items =>
    if items.length ≤ names.length then
      some (items.map some ++ List.replicate (names.length - items.length) none)
    else none
  | _ => none

/-- The shape that a tag names, or counts within another message. -/
def shape? (place : Place) (shapes : List String) : Json → Option String
  | .str name => if shapes.contains name then some name else none
  | .num n => if place = .inner then n.asWord? >>= fun i => shapes[i]? else none
  | _ => none

/-- The shape of a tagged value, and the value without its tag. -/
def tagged? (place : Place) (tag : String) (shapes : List String) : Json → Option (String × Json)
  | .obj members => do
    let found ← (← field? members tag)
    pure (← shape? place shapes found, .obj (members.filter (·.1 ≠ tag)))
  | .arr (first :: rest) => do pure (← shape? place shapes first, .arr rest)
  | _ => none

/-- What a name without content may carry instead of nothing. -/
def isVoid (place : Place) : Json → Bool
  | .null => true
  | .obj [] => place = .inner
  | _ => false

/-- A bare name, also in the form of a single member. -/
def name? (place : Place) : Json → Option String
  | .str name => some name
  | .obj [(name, j)] => if isVoid place j then some name else none
  | _ => none

end Wire

open Wire

def CommId.ofJson? (j : Json) : Option CommId := (string? j).map CommId.mk

def ViewId.ofJson? (j : Json) : Option ViewId := (word? j).map ViewId.mk

def Attributes.ofJson? (j : Json) : Option Attributes := (Value.ofJson j).asObject?

def GroupKey.ofJson? (place : Place) : Json → Option GroupKey
  | .obj [("cell", j)] => (word? j).map .cell
  | j => if name? place j = some "detached" then some .detached else none

def ExecutionState.ofJson? (place : Place) (j : Json) : Option ExecutionState :=
  name? place j >>= ExecutionState.ofName?

def Callbacks.ofJson? (place : Place) : Json → Option Callbacks
  | .obj members => do
    pure ⟨← orMissing? (GroupKey.ofJson? place) (← field? members "output")⟩
  | .arr [j] => (optional? (GroupKey.ofJson? place) j).map Callbacks.mk
  | _ => none

def SyncMessage.ofJson? (place : Place) (j : Json) : Option SyncMessage :=
  match tagged? place "method" ["update", "patch", "custom"] j with
  | some ("custom", rest) =>
    match fields? ["content"] rest with
    | some [some content] => some (.custom (.ofJson content))
    | _ => none
  | some (shape, rest) =>
    match fields? ["data"] rest with
    | some [some data] =>
      (Attributes.ofJson? data).map fun data => if shape = "update" then .update data else .patch data
    | _ => none
  | none => none

def Frame.ofJson? (j : Json) : Option Frame :=
  match tagged? .outer "type" ["comm_msg", "comm_close"] j with
  | some ("comm_msg", rest) =>
    match fields? ["comm_id", "data", "callbacks"] rest with
    | some [some comm, some data, some callbacks] => do
      pure (.message (← CommId.ofJson? comm) (← SyncMessage.ofJson? .inner data)
        (← Callbacks.ofJson? .inner callbacks))
    | _ => none
  | some (_, rest) =>
    match fields? ["comm_id"] rest with
    | some [some comm] => (CommId.ofJson? comm).map .close
    | _ => none
  | none => none

/-- The message to a model in the data of a comm message. -/
def ModelMessage.ofJson? (data : Value) : Option ModelMessage :=
  match tagged? .outer "method" ["display", "update"] data.json with
  | some ("display", rest) =>
    match fields? ["view_name", "parent", "cell_index"] rest with
    | some [some viewName, parent, cell] => do
      pure (.display (← string? viewName) (← orMissing? CommId.ofJson? parent) (← orMissing? word? cell))
    | _ => none
  | some (_, rest) =>
    match fields? ["state"] rest with
    | some [some state] => (Attributes.ofJson? state).map .update
    | _ => none
  | none => none

def StatusMessage.ofJson? (place : Place) (j : Json) : Option StatusMessage :=
  match fields? ["execution_state"] j with
  | some [some state] => (ExecutionState.ofJson? place state).map StatusMessage.mk
  | _ => none

def CommOpen.fieldNames : List String := ["comm_id", "target_name"]

def CommOpen.ofJson? (j : Json) : Option CommOpen :=
  match fields? CommOpen.fieldNames j with
  | some [some comm, some target] => do pure ⟨← CommId.ofJson? comm, ← string? target⟩
  | _ => none

def CommMessage.fieldNames : List String := ["comm_id", "data", "parent_msg_id"]

def CommMessage.ofJson? (j : Json) : Option CommMessage :=
  match fields? CommMessage.fieldNames j with
  | some [some comm, some data, parent] => do
    pure ⟨← CommId.ofJson? comm, .ofJson data, ← orMissing? string? parent⟩
  | _ => none

def UiEvent.ofJson? (place : Place) (j : Json) : Option UiEvent :=
  match tagged? place "kind" ["click", "input", "slide"] j with
  | some ("click", .obj _) | some ("click", .arr []) => some .click
  | some ("input", rest) =>
    match fields? ["value"] rest with
    | some [some text] => (string? text).map .input
    | _ => none
  | some ("slide", rest) =>
    match fields? ["value"] rest with
    | some [some position] => (int64? position).map .slide
    | _ => none
  | _ => none

def SessionEvent.shapes : List String :=
  ["execute", "comm_open", "comm_msg", "comm_close", "status", "output", "ui", "remove_view"]

/-- The event of one shape from its fields. -/
def SessionEvent.ofFields? (shape : String) (j : Json) : Option SessionEvent :=
  match shape with
  | "execute" =>
    match fields? ["cell_index", "msg_id"] j with
    | some [some cell, some message] => do pure (.execute (← word? cell) (← string? message))
    | _ => none
  | "comm_open" => (CommOpen.ofJson? j).map .commOpen
  | "comm_msg" => (CommMessage.ofJson? j).map .commMessage
  | "comm_close" =>
    match fields? ["comm_id"] j with
    | some [some comm] => (CommId.ofJson? comm).map .commClose
    | _ => none
  | "status" =>
    match fields? ["comm_id", "execution_state"] j with
    | some [some comm, some state] => do
      pure (.status (← CommId.ofJson? comm) ⟨← ExecutionState.ofJson? .inner state⟩)
    | _ => none
  | "output" =>
    match fields? ["comm_id", "text"] j with
    | some [some comm, some text] => do pure (.output (← CommId.ofJson? comm) (← string? text))
    | _ => none
  | "ui" =>
    match fields? ["view", "event"] j with
    | some [some view, some event] => do
      pure (.ui (← ViewId.ofJson? view) (← UiEvent.ofJson? .inner event))
    | _ => none
  | _ =>
    match fields? ["view"] j with
    | some [some view] => (ViewId.ofJson? view).map .removeView
    | _ => none

def SessionEvent.ofJson? (j : Json) : Option SessionEvent := do
  let (shape, rest) ← tagged? .outer "type" SessionEvent.shapes j
  SessionEvent.ofFields? shape rest

end WidgetSync
