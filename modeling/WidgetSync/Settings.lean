import WidgetSync.Settings.Ini
import WidgetSync.Settings.JsonSource
import WidgetSync.Settings.Json5
import WidgetSync.Settings.Toml
import WidgetSync.Settings.Yaml
import WidgetSync.Model

/-! Settings: built-in ones, under those of the settings files, under those of the environment. -/
namespace WidgetSync

structure Settings where
  throttle : Nat
  deriving DecidableEq

inductive SettingsError where
  /-- A source cannot be read, or holds something of the wrong type. -/
  | unreadable
  | zeroThrottle
  deriving DecidableEq

/-- What is wrong, where that does not depend on the format of a source. -/
def SettingsError.message? : SettingsError → Option String
  | .unreadable => none
  | .zeroThrottle => some "widgets.msg_throttle must be at least 1"

namespace Settings

def builtin : Settings := ⟨Model.defaultThrottle⟩

/-- The throttle lets at least one message through. -/
def validate (s : Settings) : Except SettingsError Unit :=
  if s.throttle = 0 then .error .zeroThrottle else .ok ()

/-- A settings file: its name, its other names, and how to read it. -/
structure Source where
  name : String
  others : List String
  read? : String → Option (List (String × Tree))

/-- The files in the order in which they are merged. -/
def sources : List Source :=
  [⟨"config.json5", ["config.json5.json5"], Json5.read?⟩,
   ⟨"config.json", ["config.json.json"], Json.readTable?⟩,
   ⟨"config.yaml", ["config.yaml.yaml", "config.yaml.yml"], Yaml.read?⟩,
   ⟨"config.toml", ["config.toml.toml"], Toml.read?⟩,
   ⟨"config.ini", ["config.ini.ini"], Ini.read?⟩]

/-- The first file there is under one of the names of a source. -/
def Source.find? (s : Source) (files : List (String × String)) : Option String :=
  (s.name :: s.others).findSome? fun name => files.lookup name

/-- A byte order mark at the front does not count. -/
def dropMark (text : String) : String :=
  match text.toList with
  | '\uFEFF' :: cs => String.ofList cs
  | _ => text

/-- Merges the files that there are. -/
def mergeFiles (files : List (String × String)) : List Source → Tree → Except SettingsError Tree
  | [], t => .ok t
  | s :: rest, t =>
    match s.find? files with
    | none => mergeFiles files rest t
    | some text =>
      match s.read? (dropMark text) with
      | none => .error .unreadable
      | some entries => mergeFiles files rest (t.merge entries)

/-- What the names of the program's environment variables start with, in lower case. -/
def variablePrefix : List Char := "nbwidget_".toList

/-- Two underscores in the name of a variable part the names of a path. -/
def variablePath : List Char → List Char
  | '_' :: '_' :: cs => '.' :: variablePath cs
  | c :: cs => c :: variablePath cs
  | [] => []

/-- The setting of an environment variable, if it is one of the program's. -/
def setting? (entry : String × String) : Option (String × Tree) :=
  let name := Tree.lower entry.1.toList
  if variablePrefix.isPrefixOf name then
    some (String.ofList (variablePath (name.drop variablePrefix.length)), Tree.ofScalar entry.2)
  else none

def defaults : List (String × Tree) :=
  [("_data_dir", .text ""), ("_config_dir", .text ""), ("widgets.msg_throttle", .int Model.defaultThrottle)]

/-- A number of 64 bits without sign; decimals are rounded, and truth values and their names count as one and zero. -/
def word? : Tree → Option Nat
  | .int i => if 0 ≤ i then some i.toNat else none
  | .float x => some x.round.toUInt64.toNat
  | .bool b => some b.toNat
  | .text s =>
    match String.ofList (Tree.lower s.toList) with
    | "true" | "on" | "yes" => some 1
    | "false" | "off" | "no" => some 0
    | _ => Text.word? s.toList
  | .nil | .list _ | .table _ => none

def isText : Tree → Bool
  | .text _ => true
  | _ => false

/-- The throttle among the widget settings, which are a table, or a list that has it first. -/
def throttleOf? : Tree → Option Nat
  | .table entries => (entries.lookup "msg_throttle").elim (some builtin.throttle) word?
  | .list [] => some builtin.throttle
  | .list (first :: _) => word? first
  | _ => none

/-- The settings in a tree. The directories have to be texts. -/
def ofTree? (t : Tree) : Option Settings :=
  if (t.get? "_data_dir").all isText && (t.get? "_config_dir").all isText then
    (t.get? "widgets" >>= throttleOf?).map Settings.mk
  else none

/-- Loads settings from environment variables and files. -/
def load (environment files : List (String × String)) : Except SettingsError Settings := do
  let t ← mergeFiles files sources (Tree.merge (.table []) defaults)
  match ofTree? (t.merge (environment.filterMap setting?)) with
  | none => .error .unreadable
  | some settings =>
    settings.validate
    pure settings

end Settings

end WidgetSync
