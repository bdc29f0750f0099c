import WidgetSync.CommandLine
import WidgetSync.Settings
import WidgetSync.Session
import WidgetSync.Wire.Encode

/-! The program: it reads a session, prints the frames that it makes the page send, and then perhaps the page. -/
namespace WidgetSync

/-- All that a run depends on. -/
structure Invocation where
  arguments : List String
  environment : List (String × String)
  settingsFiles : List (String × String)
  /-- The session files that can be read, by name. -/
  files : List (String × List UInt8)
  input : List UInt8

structure RunResult where
  exitCode : Nat
  output : String
  deriving DecidableEq

namespace Invocation

/-- A name without the steps at its front that stay in the same directory. -/
def localName : List Char → List Char
  | '.' :: '/' :: name => localName name
  | name => name

/-- The session file of a name, or else the input. -/
def source? (i : Invocation) : Option String → Option (List UInt8)
  | none => some i.input
  | some name => (i.files.find? fun file => localName file.1.toList = localName name.toList).map Prod.snd

/-- How many cells fit into memory, at 80 bytes each. -/
def maxCells : Nat := 0x7FFFFFFFFFFFFFFF / 80

/-- The settings, in which the command line has the last word. They have to be in order without it, too. -/
def settings (i : Invocation) (o : CommandLine.Options) : Except SettingsError Settings := do
  let loaded ← Settings.load i.environment i.settingsFiles
  let settings : Settings := ⟨o.throttle.getD loaded.throttle⟩
  settings.validate
  pure settings

def frameLine (f : Frame) : String := f.toJson.compact ++ "\n"

/-- Runs a session. If it could not be read to its end, that shows in the exit code and the page is not printed. -/
def play (o : CommandLine.Options) (s : Settings) (source : List UInt8) : RunResult :=
  let session := Session.ofBytes source
  let start := (Connection.new s.throttle).install (.withCells o.cellCount)
  let (c, frames) := start.run session.events
  let output := String.join (frames.map frameLine)
  if session.fault.isSome then ⟨1, output⟩
  else ⟨0, output ++ if o.render then c.manager.elim "" Manager.render else ""⟩

def run (i : Invocation) : RunResult :=
  match CommandLine.parse i.arguments with
  | .error e => ⟨e.exitCode, ""⟩
  | .ok o =>
    match i.settings o with
    | .error _ => ⟨1, ""⟩
    | .ok s =>
      if maxCells < o.cellCount then ⟨1, ""⟩
      else
        match i.source? o.session with
        | none => ⟨1, ""⟩
        | some source => play o s source

end Invocation

end WidgetSync
