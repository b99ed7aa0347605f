import DisplayFilter.Command.Run
import DisplayFilter.Document.Yaml.Reader
import Std.Time.Format
/-!
# The command line

Looks at the files that the arguments and the configuration name, runs the command on them, and writes
what it prints and logs.
-/

namespace DisplayFilter.Command

def inspect (place : Path) : IO File := do
  try
    let octets ← IO.FS.readBinFile place.text
    return .octets (octets.toList.map UInt8.toNat)
  catch
    | .noFileOrDirectory .. => return .missing
    | .permissionDenied .. => return .locked
    | _ => return .directory

/-- What stands along the ways of several written paths. -/
def inspectAll (paths : List String) : IO (List (Path × File)) :=
  let places := paths.flatMap fun path => (Path.startOf path).trail (Path.stepsOf path)
  places.eraseDups.mapM fun place => return (place, ← inspect place)

def filesOf (found : List (Path × File)) : Files :=
  fun place => (found.lookup place).getD .missing

def timeStamp : IO String := do
  let now ← Std.Time.PlainDateTime.now
  return now.format "uuuu-MM-dd HH:mm:ss,SSS"

/-- The path by which the bundled labels are reported. -/
def bundledPath : String := "labels_zh.yaml"

/-- Copies the log of a run to its file. -/
def copyLog (stamp : String) (run : Run) : IO Unit := do
  if let some place := run.logFile then
    let handle ← IO.FS.Handle.mk place.text .append
    handle.putStr (logText stamp run.output)

/-- Runs the command and gives its exit status. -/
def execute (arguments : List String) : IO UInt32 := do
  let paths := argumentPaths arguments
  let named := filesOf (← inspectAll paths)
  let configured := paths.flatMap fun path => configFilePaths (named.read Yaml.read path)
  let files := filesOf (← inspectAll (paths ++ configured))
  let stamp ← timeStamp
  let run := Command.run ⟨files, Yaml.read, bundledPath, stamp⟩ arguments
  copyLog stamp run
  IO.print (run.text stamp)
  match run.ending with
  | .exit status => return status.toUInt32
  | .usage error =>
    IO.eprintln usageLine
    IO.eprintln ("traffic-filter: error: " ++ error.message)
    return 2
  | .fault fault =>
    IO.eprintln fault.message
    return 1

end DisplayFilter.Command

def main (arguments : List String) : IO UInt32 :=
  DisplayFilter.Command.execute arguments
