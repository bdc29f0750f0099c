import WidgetSync.Program

/-! The command line program around `Invocation.run`. -/
namespace WidgetSync

/-- The environment variables, as the system lists them for the running process. -/
def readEnvironment : IO (List (String × String)) := do
  let bytes ← try IO.FS.readBinFile "/proc/self/environ" catch _ => pure ByteArray.empty
  let entries := ((String.fromUTF8? bytes).getD "").splitOn "\x00"
  pure (entries.filterMap fun entry =>
    match entry.splitOn "=" with
    | name :: value => if value.isEmpty then none else some (name, "=".intercalate value)
    | [] => none)

/-- The directory of the settings files. -/
def settingsDirectory : IO String := do
  if let some directory ← IO.getEnv "NBWIDGET_CONFIG" then return directory
  if let some directory ← IO.getEnv "XDG_CONFIG_HOME" then return directory ++ "/nbwidget"
  return ((← IO.getEnv "HOME").getD "") ++ "/.config/nbwidget"

/-- The settings files that there are. -/
def readSettings : IO (List (String × String)) := do
  let directory ← settingsDirectory
  let names := Settings.sources.flatMap fun s => s.name :: s.others
  let found ← names.mapM fun name => do
    let path : String := directory ++ "/" ++ name
    try return some (name, ← IO.FS.readFile path) catch _ => return none
  return found.filterMap id

/-- Reads a stream to its end. -/
partial def readAll (stream : IO.FS.Stream) (read : ByteArray) : IO ByteArray := do
  let more ← stream.read 65536
  if more.isEmpty then return read else readAll stream (read ++ more)

/-- The session file that the arguments name, if it can be read. -/
def readSession (arguments : List String) : IO (List (String × List UInt8)) := do
  match CommandLine.parse arguments with
  | .ok { session := some name, .. } =>
    try return [(name, (← IO.FS.readBinFile name).toList)] catch _ => return []
  | _ => return []

/-- The input, unless the arguments ask for none of it. -/
def readInput (arguments : List String) : IO (List UInt8) := do
  match CommandLine.parse arguments with
  | .ok { session := none, .. } => return (← readAll (← IO.getStdin) ByteArray.empty).toList
  | _ => return []

end WidgetSync

open WidgetSync in
def main (arguments : List String) : IO UInt32 := do
  let result := Invocation.run {
    arguments
    environment := ← readEnvironment
    settingsFiles := ← readSettings
    files := ← readSession arguments
    input := ← readInput arguments }
  IO.print result.output
  return result.exitCode.toUInt32
