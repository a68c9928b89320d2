import SqlTables.CommandLine
import SqlTables.Grammar
import Std.Time.DateTime.Timestamp

/-!
# The program

The outer layer of the command line: it looks up what a command needs, runs the command, and carries
out what the command does. The configuration file and the log are in `.sqltables` in the home of the
user.
-/

namespace SqlTables

namespace Program

/-- The time of the clock on the wall. -/
def now : IO Instant := do
  let t ← Std.Time.Timestamp.now
  pure (.ofUnixTime (t.toNanosecondsSinceUnixEpoch.val / 1000).toNat)

/-- The bytes of a file, if it can be read. -/
def bytes? (path : String) : IO (Option (List UInt8)) := do
  match ← (IO.FS.readBinFile path).toBaseIO with
  | .ok bytes => pure (some bytes.toList)
  | .error _ => pure none

/-- The names of the files in a folder, which may be absent. -/
def fileNames (folder : String) : IO (List String) := do
  let directory ← IO.currentDir
  match ← ((directory / folder).readDir).toBaseIO with
  | .ok entries => pure (entries.toList.map (·.fileName))
  | .error _ => pure []

/-- What a path leads to. -/
def target (path : String) : IO PathTarget := do
  let directory ← IO.currentDir
  if path = "" then pure .nothing
  else if ← (directory / path).isDir then pure .directory
  else
    match ← bytes? path with
    | some bytes => pure (.file bytes)
    | none => pure .nothing

/-- Reads a stream to its end. -/
partial def readAll (stream : IO.FS.Stream) (start : ByteArray) : IO ByteArray := do
  let more ← stream.read 65536
  if more.isEmpty then pure start else readAll stream (start ++ more)

/-- The text of standard input, unless that is a terminal. -/
def stdin : IO (Option String) := do
  let stream ← IO.getStdin
  if ← stream.isTty then return none
  let bytes ← readAll stream .empty
  match Utf8.decode bytes.toList with
  | .ok chars => pure (some (String.ofList chars))
  | .error cause => throw (IO.userError cause.message)

/-- Changes the configuration file, which only its owner may read. -/
def saveConfig (folder path : String) : ConfigFile → IO Unit
  | some bytes => do
    IO.FS.createDirAll folder
    IO.FS.writeBinFile path ⟨bytes.toArray⟩
    IO.setAccessRights path { user := { read := true, write := true } }
  | none => IO.FS.removeFile path

/-- Adds a line to a file of the log. -/
def addLine (folder file line : String) : IO Unit := do
  IO.FS.createDirAll folder
  let handle ← IO.FS.Handle.mk (folder ++ "/" ++ file) .append
  handle.putStrLn line

/-- Drops files of the log, and the folder if it is left empty. -/
def dropFiles (folder : String) (files : List String) : IO Unit := do
  for file in files do
    IO.FS.removeFile (folder ++ "/" ++ file)
  if (← fileNames folder).isEmpty then
    let _ ← (IO.FS.removeDir folder).toBaseIO

/-- Runs the command line and gives its exit code. -/
def run (arguments : List String) : IO UInt32 := do
  let base := (← IO.getEnv "HOME").getD "" ++ "/.sqltables"
  let configPath := base ++ "/config.toml"
  let logs := base ++ "/logs/" ++ LogFolder.slug (← IO.currentDir).toString
  let targets ← (CommandLine.paths arguments).mapM fun path => do pure (path, ← target path)
  let host : Host :=
    { now := ← now
      configPath
      config := ← bytes? configPath
      logFiles := ← fileNames logs
      target := fun path => (targets.lookup path).getD .nothing
      stdin := ← if CommandLine.needsStdin arguments then stdin else pure none
      outIsTerminal := ← (← IO.getStdout).isTty
      errIsTerminal := ← (← IO.getStderr).isTty }
  let start ← IO.monoNanosNow
  let o ← IO.lazyPure fun _ => CommandLine.run Grammar.parse host arguments
  let stop ← IO.monoNanosNow
  IO.print o.out
  IO.eprint o.err
  if let some file := o.config then
    saveConfig base configPath file
  if let some e := o.entry then
    let duration := Outcome.loggedDuration (.ofDecimal false (stop - start) (-6)) e
    addLine logs (LogFolder.fileName host.now.date) (e.line host.now duration)
    dropFiles logs o.expired
  match o.ending with
  | .exit code => pure code.toUInt32
  | .failed cause => do
    IO.eprintln ("Error: " ++ cause.message configPath)
    pure 1

end Program

end SqlTables

def main (arguments : List String) : IO UInt32 := SqlTables.Program.run arguments
