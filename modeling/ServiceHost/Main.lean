import ServiceHost.CommandLine

/-!
# The program — the command line in a process

Reads what the host needs of its surroundings, starts it, and asks it to stop when its standard
input ends. The records of its log go to the standard error stream or to the file of its log
directory. Nothing is decided here.
-/

set_option autoImplicit false

open ServiceHost

/-- The environment of the process, as its operating system shows them. -/
def readEnvironment : IO (List (String × String)) := do
  let text ← try IO.FS.readFile "/proc/self/environ" catch _ => pure ""
  return (Text.segments '\x00' text).filterMap fun entry =>
    match Text.cutOnce '=' entry.toList with
    | (name, some value) => some (String.ofList name, String.ofList value)
    | _ => none

/-- The settings file that the host will look for, if it can be read. -/
def readSettingsFile (surroundings : Surroundings) : IO FileTree := do
  let path := FileSettings.location surroundings
  try return surroundings.files.write path (← IO.FS.readFile path)
  catch _ => return surroundings.files

/-- A text that no other host uses. -/
def readFreshId : IO String := do
  let text ← try IO.FS.readFile "/proc/sys/kernel/random/uuid" catch _ => pure ""
  return Text.trim text

/-- The log as a stream of lines. -/
def openStream (start : CommandLine.Start) : IO IO.FS.Stream := do
  match start with
  | .running { destination := some directory, .. } _
  | .failed { destination := some directory, .. }
  | .crashed { destination := some directory, .. } =>
    IO.FS.createDirAll directory
    let file ← IO.FS.Handle.mk (directory ++ "/" ++ ProcessLog.currentFile) .append
    return .ofHandle file
  | _ => IO.getStderr

def writeRecords (stream : IO.FS.Stream) (start : CommandLine.Start) (events : List Event) :
    IO Unit := do
  for record in start.records events do
    match record with
    | .logged level message => stream.putStrLn (level.name ++ " " ++ message)
    | .recorded .. => pure ()
  stream.flush

/-- Reads lines until there is none left. -/
partial def waitForEnd (stream : IO.FS.Stream) : IO Unit := do
  if (← stream.getLine).isEmpty then return () else waitForEnd stream

def main : IO UInt32 := do
  let surroundings : Surroundings :=
    { environment := ← readEnvironment, freshId := ← readFreshId }
  let surroundings := { surroundings with files := ← readSettingsFile surroundings }
  let (start, world) := CommandLine.start.run (CommandLine.processWorld surroundings)
  for line in start.complaints do
    (← IO.getStderr).putStrLn line
  let stream ← openStream start
  writeRecords stream start world.journal
  match start with
  | .running .. => waitForEnd (← IO.getStdin)
  | _ => pure ()
  let ((), stopped) := (CommandLine.stop start).run world
  writeRecords stream start (stopped.journal.drop world.journal.length)
  return start.exitCode.toUInt32
