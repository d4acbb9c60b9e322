/-
  Reflash.Main

  The loader's command line. Here the image is a file and the serial port a
  device; what to say and send is decided by `Reflash.Loader`. The port has to be
  set up beforehand so that a read waits one second at most and then gives
  nothing. Ports are not searched for: the one to use is named with `--port`.
-/
import Reflash.Loader.Program

namespace Reflash

namespace Loader

/-- Prints the records that the command line asks for. -/
def report (level : LogLevel) (records : List LogRecord) : IO Unit :=
  IO.eprint (LogRecord.lines level records)

/-- Why a file could not be read. -/
def complaint : IO.Error → String
  | .noFileOrDirectory _ _ _ => FileError.notFound.message
  | error => toString error

/-- The contents of a file, or why it cannot be read. -/
def contents (path : String) : IO (Except String Bytes) := do
  try
    return .ok (← IO.FS.readBinFile path).toList
  catch error =>
    return .error (complaint error)

/-- Carries out one step on the port; failing is a result like any other. -/
def attempt {α : Type} (kind : FailureKind) (step : IO α) : IO (Except Failure α) := do
  try
    return .ok (← step)
  catch error =>
    return .error (.custom kind (toString error))

/-- Waits for an answer of the node. -/
def listen (port : IO.FS.Handle) : IO (Except Failure Bytes) := do
  match ← attempt .other (port.read readSize.toUSize) with
  | .error failure => return .error failure
  | .ok answer =>
    if answer.isEmpty then return .error (.custom .timedOut "no answer")
    return .ok answer.toList

/-- Talks to the node until the session ends or something fails. -/
partial def talk (level : LogLevel) (source sink : IO.FS.Handle) (session : Session) :
    IO (Except Failure Unit) := do
  report level (Journal.ofCollect session)
  let (due, session) := session.collect
  if let some bytes := due then
    if let .error failure ← attempt .other (sink.write (.mk bytes.toArray) *> sink.flush) then
      return .error failure
  if session.ended then return .ok ()
  let (records, next) := respond session (← listen source)
  report level records
  match next with
  | .error failure => return .error failure
  | .ok session => talk level source sink session

/-- Opens the port, once for either direction, and carries out a plan. -/
def carryOut (level : LogLevel) (plan : Plan) : IO (Except Failure Unit) := do
  let openPort := IO.FS.Handle.mk plan.opening.name .readWrite
  match ← attempt .connectionRefused (Prod.mk <$> openPort <*> openPort) with
  | .error failure => return .error failure
  | .ok (source, sink) =>
    let (records, session) := openSession plan
    report level records
    match session with
    | .error failure => return .error failure
    | .ok session =>
      let ending ← talk level source sink session
      report level (farewell ending)
      return ending

/-- The loader with a command line that begins with the program's name. -/
def runCommand (arguments : List String) : IO UInt32 := do
  let (level, warning) := Arguments.logLevel arguments
  if let some warning := warning then IO.eprintln warning
  let image ← match Arguments.firmwarePath arguments with
    | .error _ => pure (.error "")
    | .ok path => contents path
  let (records, prospect) :=
    prepare arguments (fun _ => image) (.ok (Arguments.port? arguments).toList)
  report level records
  let ending ← match prospect with
    | .over ending => pure ending
    | .planned plan => carryOut level plan
  match ending with
  | .ok () => return 0
  | .error failure =>
    IO.eprint failure.lastLine
    return 1

end Loader

end Reflash

def main (arguments : List String) : IO UInt32 :=
  Reflash.Loader.runCommand ("reflash" :: arguments)
