import WidgetSync.Json.Value
import WidgetSync.Json.Reader
import WidgetSync.Json.Writer

/-! The dialog in which metadata is edited as JSON text. Keyboard shortcuts are off while it has the focus. -/
namespace WidgetSync

inductive KeyboardCall where
  | enable
  | disable
  | commandMode
  deriving DecidableEq, Repr

def KeyboardCall.name : KeyboardCall → String
  | .enable => "enable"
  | .disable => "disable"
  | .commandMode => "command_mode"

structure MetadataEditor where
  /-- What the metadata belongs to. -/
  name : String
  text : String
  /-- The last save failed. -/
  isWarning : Bool
  /-- What the dialog asked of the keyboard, in order. -/
  keyboard : List KeyboardCall
  deriving DecidableEq

namespace MetadataEditor

/-- Opens the dialog on metadata, or on an empty object. -/
def start (name : String) (metadata : Option Value) : MetadataEditor where
  name
  text := (metadata.elim (.obj []) Value.json).pretty
  isWarning := false
  keyboard := [.disable]

def help (e : MetadataEditor) : String :=
  "Manually edit the JSON below to manipulate the metadata for this " ++ e.name ++ ". We recommend putting custom "
    ++ "metadata attributes in an appropriately named sub-structure, so they don't conflict with those of others."

def warning? (e : MetadataEditor) : Option String :=
  if e.isWarning then some "WARNING: Could not save invalid JSON." else none

def setText (e : MetadataEditor) (text : String) : MetadataEditor := { e with text }

/-- Gives the keyboard back. -/
def close (e : MetadataEditor) : MetadataEditor :=
  { e with keyboard := e.keyboard ++ [.enable, .commandMode] }

/-- Saves the text if it is JSON; if not, the dialog stays open with a warning. -/
def save (e : MetadataEditor) : MetadataEditor × Option Value :=
  match Json.read? e.text with
  | some metadata => ({ e with isWarning := false }.close, some (.ofJson metadata))
  | none => ({ e with isWarning := true }, none)

/-- Closes the dialog without saving. -/
def cancel (e : MetadataEditor) : MetadataEditor := e.close

end MetadataEditor

end WidgetSync
