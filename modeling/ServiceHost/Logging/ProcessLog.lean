import ServiceHost.Logging.Error
import ServiceHost.Text.Blank
import ServiceHost.World

/-!
# The process log — set up once, for good

A process has one log, with a level and a destination. **The first request that succeeds decides
both**; repeating it does nothing, in whatever spelling, and a request for another destination or
another level is refused. A request that cannot even be understood is refused first.
-/

set_option autoImplicit false

namespace ServiceHost

def version : String := "0.1.0"

/-- The level of a process that does not ask for one. -/
def LogLevel.standard : LogLevel := .debug

/-- The level that a text names, in any case of its ASCII letters. -/
def LogLevel.ofName? (name : String) : Option LogLevel :=
  let name := name.map Char.toLower
  if name = "warning" then some .warn
  else LogLevel.all.find? (·.name = name)

structure ProcessLog where
  level : LogLevel
  destination : LogDestination
deriving DecidableEq, Repr

namespace ProcessLog

/-- The level that a request asks for. -/
def readLevel (text : String) : Except LogError LogLevel :=
  let name := Text.trim text
  match LogLevel.ofName? name with
  | some level => .ok level
  | none => .error (.unknownLevel name)

/-- The directory that a request asks for, without the blanks around it. -/
def readDirectory (text : String) : Except LogError Path :=
  let path := Text.trim text
  if path = "" then .error .blankDirectory
  else if Path.isAbsolute path then .ok path
  else .error (.relativeDirectory path)

/-- The log that a request asks for: a level, and a directory if it names one. -/
def request (level : String) (directory : Option String) : Except LogError ProcessLog := do
  let level ← readLevel level
  let destination ← directory.mapM readDirectory
  return { level, destination }

/-- A destination is the same in every spelling of its path. -/
def sameDestination : LogDestination → LogDestination → Bool
  | none, none => true
  | some directory, some other => Path.same directory other
  | _, _ => false

/-- A log that is set up agrees with a request. -/
def accept (log requested : ProcessLog) : Except LogError Unit :=
  if !sameDestination log.destination requested.destination then
    .error (.otherDestination log.destination requested.destination)
  else if log.level ≠ requested.level then .error (.otherLevel log.level requested.level)
  else .ok ()

/-- The log keeps a delivery: only a record of its level, or of a graver one. -/
def keeps (log : ProcessLog) : Delivery → Bool
  | .logged level _ => log.level.keeps level
  | .recorded .. => false

/-- The record that a log begins with, if its level keeps it. -/
def opening (log : ProcessLog) : List Delivery :=
  [Delivery.logged .info ("event=logging_init module=core status=ok level=" ++ log.level.name ++
    " destination=" ++ log.destination.name ++ " os=linux version=" ++ version)].filter log.keeps

/-- The file of a directory that records go to. -/
def currentFile : String := "connector_rCURRENT.log"

/-- Makes the directory that the log writes to, if it writes to one. -/
def makeDestination (log : ProcessLog) : StateM World (Except LogError Unit) := do
  match log.destination with
  | none => return .ok ()
  | some directory =>
    match ← World.onFiles (FileTree.makeDirectory directory) with
    | .ok () => return .ok ()
    | .error cause => return .error (.noDirectory directory cause)

/-- Delivers the records that the log begins with. The file of a directory is there from the
first record on, and one that cannot be made is no failure of the log. -/
def deliverOpening (log : ProcessLog) : StateM World Unit := do
  let records := log.opening
  match log.destination with
  | none => pure ()
  | some directory =>
    unless records.isEmpty do
      World.onFiles (modify (·.touch (directory.join currentFile)))
  modify fun world => { world with journal := world.journal ++ records.map .delivered }

def start (log : ProcessLog) : StateM World (Except LogError Unit) := do
  match ← log.makeDestination with
  | .ok () =>
    log.deliverOpening
    return .ok ()
  | .error error => return .error error

/-- The log that is set up, or else the one that is asked for, once it is started, which may
fail. -/
def getOrStart {σ : Type} (start : ProcessLog → StateM σ (Except LogError Unit))
    (current : Option ProcessLog) (requested : ProcessLog) :
    StateM σ (Except LogError ProcessLog) := do
  match current with
  | some log => return .ok log
  | none =>
    match ← start requested with
    | .ok () => return .ok requested
    | .error error => return .error error

/-- Answers a request with the log that is then set up, which must be the one that is asked for.
Beside the answer stands what is set up from then on. -/
def answer {σ : Type} (start : ProcessLog → StateM σ (Except LogError Unit))
    (current : Option ProcessLog) (level : String) (directory : Option String) :
    StateM σ (Except LogError ProcessLog × Option ProcessLog) := do
  match request level directory with
  | .error error => return (.error error, current)
  | .ok requested =>
    match ← getOrStart start current requested with
    | .error error => return (.error error, current)
    | .ok log => return ((log.accept requested).map fun () => log, some log)

/-- Answers a request. -/
def setUp {σ : Type} (start : ProcessLog → StateM σ (Except LogError Unit))
    (current : Option ProcessLog) (level : String) (directory : Option String) :
    StateM σ (Except LogError ProcessLog) := do
  return (← answer start current level directory).1

/-- What is told of a log: the name of its level, and where it writes to. -/
def status (log : ProcessLog) : String × LogDestination :=
  (log.level.name, log.destination)

end ProcessLog

end ServiceHost
