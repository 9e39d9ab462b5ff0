import ServiceHost.Launch.Handle
import ServiceHost.Logging.PanicLine
import ServiceHost.Logging.ProcessLog

/-!
# The command line — a host on its own, from its log to its exit code

The command line sets up the process log from the environment, launches a host of built-in parts,
and runs its shutdown hook once it is asked to stop. What it leaves behind is an exit code, the
complaints that it makes before there is a log, and the records that its log keeps.
-/

set_option autoImplicit false

namespace ServiceHost

namespace CommandLine

/-- The variable that names the level of the log. -/
def levelVariable : String := "EDC_LOG_LEVEL"

/-- The variable that names the directory of the log. -/
def directoryVariable : String := "EDC_LOG_DIR"

/-- Where a start of the command line has led to. -/
inductive Start where
  /-- There is no log. -/
  | refused (error : LogError)
  /-- There is a log, and the host did not come up. -/
  | failed (log : ProcessLog)
  /-- There is a log, and the process came down before the host was up. -/
  | crashed (log : ProcessLog)
  | running (log : ProcessLog) (handle : Handle)

namespace Start

/-- The exit code that a start leads to, in the end. -/
def exitCode : Start → UInt8
  | .refused _ => 1
  | .failed _ => 255
  | .crashed _ => 101
  | .running .. => 0

/-- What is said to the standard error stream without a log. -/
def complaints : Start → List String
  | .refused error => ["connector: " ++ error.message]
  | _ => []

def crashRecord (crash : Crash) : Delivery :=
  .logged .error ("event=panic module=core status=error location=unknown message=" ++
    PanicLine.text (some crash.message))

/-- What some events delivered. A crash is the last of them, and leaves a record of its own. -/
def deliveries : List Event → List Delivery
  | [] => []
  | .delivered delivery :: rest => delivery :: deliveries rest
  | .crashed crash :: _ => [crashRecord crash]
  | _ :: rest => deliveries rest

/-- The records that the log of a start keeps of some events. -/
def records (start : Start) (events : List Event) : List Delivery :=
  match start with
  | .refused _ => []
  | .failed log | .crashed log | .running log _ => (deliveries events).filter log.keeps

end Start

/-- Sets up the log that the environment asks for. -/
def openLog : StateM World (Except LogError ProcessLog) := do
  let surroundings := (← get).surroundings
  ProcessLog.setUp ProcessLog.start none
    ((surroundings.valueOf? levelVariable).getD LogLevel.standard.name)
    (surroundings.valueOf? directoryVariable)

/-- Sets up the log and launches the host. -/
def start : StateM World Start := do
  match ← openLog with
  | .error error => return .refused error
  | .ok log =>
    let attempt ← launch {}
    if (← get).journal.any Event.isCrash then return .crashed log
    match attempt.outcome with
    | .error _ => return .failed log
    | .ok handle =>
      modify (·.write (.delivered (.logged .info
        ("event=runtime_ready module=cli connector_id=" ++ handle.context.connectorId))))
      return .running log handle

/-- Asks a host that runs to stop. -/
def stop : Start → StateM World Unit
  | .running _ handle => do
    let _ ← handle.shutdown
  | _ => return ()

/-- A whole run: it starts and, if the host comes up, is asked to stop at once. -/
structure Run where
  exitCode : UInt8
  complaints : List String
  records : List Delivery

/-- The world of a process. Its clock does not stand still, so that every call takes some time. -/
def processWorld (surroundings : Surroundings) : World :=
  { surroundings, overhead := 1 }

/-- Runs the command line in some surroundings. -/
def run (surroundings : Surroundings) : Run :=
  let (start, world) := start.run (processWorld surroundings)
  let ((), world) := (stop start).run world
  { exitCode := start.exitCode
    complaints := start.complaints
    records := start.records world.journal }

end CommandLine

end ServiceHost
