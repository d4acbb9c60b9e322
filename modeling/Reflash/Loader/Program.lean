/-
  Reflash.Loader.Program

  The loader: reads an image, opens a serial port, and runs a session over it. Its
  conversation with the port is a list of answers, one for each read. `Loader.run`
  follows it over a scripted port to the end and tells everything that can be seen
  of it: the log, what was opened, what was sent and how it ended.
-/
import Reflash.Link.Script
import Reflash.Loader.Arguments
import Reflash.Loader.Files
import Reflash.Loader.Journal
import Reflash.Loader.Path

namespace Reflash

/-! ## Reading and writing -/

/-- What the reads of a script give, when each takes up to `size` bytes. -/
def ScriptedRead.answers {ε : Type} (size : Nat) : ScriptedRead ε → List (Except ε Bytes)
  | nothing => [.ok []]
  | fails error => [.error error]
  | gives bytes => if bytes.isEmpty then [.ok []] else (bytes.pieces size).map .ok

namespace Script

/-- Writes all of `bytes`. An interrupted write is tried again; a write that takes nothing is a
failure. -/
def writeAll (bytes : Bytes) (port : Script Failure) : Except Failure Unit × Script Failure :=
  if _h : bytes.length = 0 then (.ok (), port)
  else match _hw : port.writes with
    | [] => (.ok (), (port.write bytes).2)
    | .error failure :: writes =>
      if failure.kind? = some .interrupted then writeAll bytes { port with writes }
      else (.error failure, { port with writes })
    | .ok n :: _ =>
      if min n bytes.length = 0 then
        (.error (.fixed .writeZero "failed to write whole buffer"), (port.write bytes).2)
      else writeAll (bytes.drop (min n bytes.length)) (port.write bytes).2
termination_by bytes.length + port.writes.length
decreasing_by
  -- An interruption uses up a scripted write, any other write takes bytes.
  · simp [_hw]
  · simp only [write, _hw, List.length_drop, List.length_cons]; omega

end Script

namespace Loader

/-- Room for bytes received from the node. -/
def receiveCapacity : Nat := 4096

/-- Bytes taken in one read. -/
def readSize : Nat := 512

/-- How long a read waits, in milliseconds. -/
def responseTimeout : Nat := 1000

def note (level : LogLevel) (message : String) : LogRecord :=
  { level, source := "fota_loader_cli", message }

def sessionFailure (error : SessionError) : Failure :=
  .custom .other ("Update session failed: " ++ error.describe)

/-- What the loader makes of an image that cannot be read. -/
def imageFailure (text : String) : Failure :=
  .custom .other ("Failed to read firmware file: " ++ text)

/-- The options of a session for the image at `path`. -/
def options (node : Option UInt8) (path : String) : SessionOptions :=
  { target := node, id := .ofLabel (Path.label path) }

/-! ## The conversation -/

/-- Hands the due frames to the port, if there are any. -/
def deliver (due : Option Bytes) (port : Script Failure) : Except Failure Unit × Script Failure :=
  match due with
  | none => (.ok (), port)
  | some bytes =>
    match port.writeAll bytes with
    | (.error failure, port) => (.error failure, port)
    | (.ok (), port) => port.flush

/-- Acts on the answer of one read. -/
def respond (session : Session) : Except Failure Bytes → List LogRecord × Except Failure Session
  | .ok bytes =>
    (Journal.ofFeed session bytes, (session.feed bytes).mapError sessionFailure)
  | .error failure =>
    if failure.kind? = some .timedOut then
      (note .debug "No response in 1s, resending" :: Journal.ofTimeOut session,
        session.timeOut.mapError sessionFailure)
    else ([], .error failure)

/-- Hands over the due frames, and gives the session afterwards. -/
def turn (session : Session) (port : Script Failure) : Except Failure Session × Script Failure :=
  let (due, session) := session.collect
  let (result, port) := deliver due port
  (result.map fun () => session, port)

/-- Talks to the node until the session ends or something fails. The answers have to last until
then. -/
def converse (session : Session) (port : Script Failure)
    (answers : List (Except Failure Bytes)) :
    List LogRecord × Except Failure Unit × Script Failure :=
  let records := Journal.ofCollect session
  match turn session port with
  | (.error failure, port) => (records, .error failure, port)
  | (.ok session, port) =>
    if session.ended then (records, .ok (), port)
    else match answers with
      | [] => (records, .error (sessionFailure .retriesExhausted), port)
      | answer :: answers =>
        match respond session answer with
        | (more, .error failure) => (records ++ more, .error failure, port)
        | (more, .ok session) =>
          let (rest, ending, port) := converse session port answers
          (records ++ more ++ rest, ending, port)

/-- Every answer of a scripted port. Once the script is used up each read times out, which a
session puts up with only so often. -/
def answers (port : Script Failure) (patience : Nat) : List (Except Failure Bytes) :=
  port.reads.flatMap (ScriptedRead.answers readSize) ++
    List.replicate (patience + 1) (.error port.exhausted)

/-! ## Before the port is open -/

/-- A port to open. -/
structure Opening where
  name : String
  baud : UInt32
  deriving DecidableEq, Inhabited

/-- What is to be sent, and where. -/
structure Plan where
  path : String
  image : Bytes
  opening : Opening
  node : Option UInt8

/-- What the command line, the image and the ports there are lead to. -/
inductive Prospect where
  /-- Nothing is sent. -/
  | over (ending : Except Failure Unit)
  | planned (plan : Plan)

/-- The port to open: the one named, else the first there is. -/
def choosePort (arguments : List String) (ports : List String) : Option String :=
  (Arguments.port? arguments).orElse fun () => ports.head?

/-- Everything up to opening the port. The command line begins with the program's name; `read`
gives the contents of a file, or says why it cannot be read. -/
def prepare (arguments : List String) (read : String → Except String Bytes)
    (ports : Except String (List String)) : List LogRecord × Prospect :=
  let records := [note .info "FOTA Firmware Loader",
    note .info "==================================\n"]
  match Arguments.firmwarePath arguments with
  | .error failure => (records, .over (.error failure))
  | .ok path =>
    match read path with
    | .error text => (records, .over (.error (imageFailure text)))
    | .ok image =>
      let records := records ++
        [note .info ("Firmware: " ++ path ++ " (" ++ toString image.length ++ " bytes)"),
          note .info "Available serial ports:"]
      match ports with
      | .error text => (records, .over (.error (.custom .other text)))
      | .ok ports =>
        let records := records ++ ports.map fun port => note .info ("  - " ++ port)
        match choosePort arguments ports with
        | none => (records ++ [note .error "No serial ports found!"], .over (.ok ()))
        | some name =>
          -- When both are wrong, the speed is complained of.
          match Arguments.baud arguments, Arguments.nodeId arguments with
          | .error failure, _ => (records, .over (.error failure))
          | _, .error failure => (records, .over (.error failure))
          | .ok baud, .ok node =>
            (records ++ [note .info ("Connecting to: " ++ name)],
              .planned { path, image, opening := { name, baud }, node })

/-! ## Once the port is open -/

/-- Makes the announcement of a new session due. -/
def announce (created : Except SessionError Session) :
    List LogRecord × Except Failure Session :=
  match created with
  | .error error => ([], .error (sessionFailure error))
  | .ok session => (Journal.ofFeed session [], (session.feed []).mapError sessionFailure)

/-- The session that carries out a plan. -/
def openSession (plan : Plan) : List LogRecord × Except Failure Session :=
  let target := match plan.node with
    | some id => toString id
    | none => "any"
  let (records, session) :=
    announce (Session.new receiveCapacity plan.image (options plan.node plan.path))
  ([note .info "Connected successfully!",
    note .info ("Baud rate: " ++ toString plan.opening.baud),
    note .info ("Target node: " ++ target ++ "\n")] ++ records, session)

/-- The last word of a conversation. -/
def farewell : Except Failure Unit → List LogRecord
  | .ok () => [note .info "Image sent, node is starting the new firmware"]
  | .error _ => []

/-! ## The program -/

/-- What the loader finds when it is started. -/
structure World where
  /-- The command line, the program's name first. -/
  arguments : List String
  files : Files
  /-- The serial ports there are, or why they cannot be told. -/
  ports : Except String (List String)
  /-- Why the port cannot be opened. -/
  refusal : Option String := none
  port : Script Failure

/-- What can be seen of a run. -/
structure Outcome where
  records : List LogRecord
  ending : Except Failure Unit
  /-- The port that was tried to open. -/
  opening : Option Opening := none
  sent : Bytes := []

/-- The loader, from start to end. -/
def run (world : World) : Outcome :=
  match prepare world.arguments
    (fun path => (world.files.read path).mapError FileError.message) world.ports with
  | (records, .over ending) => { records, ending }
  | (records, .planned plan) =>
    let opening := some plan.opening
    match world.refusal with
    | some text => { records, ending := .error (.custom .connectionRefused text), opening }
    | none =>
      match openSession plan with
      | (more, .error failure) =>
        { records := records ++ more, ending := .error failure, opening }
      | (more, .ok session) =>
        let (talk, ending, port) := converse session world.port
          (answers world.port session.options.maxRetries.toNat)
        { records := records ++ more ++ talk ++ farewell ending, ending, opening
          sent := port.sent }

/-! ## What is printed -/

/-- The text a run leaves on its error output. -/
def Outcome.text (arguments : List String) (outcome : Outcome) : String :=
  let (level, warning) := Arguments.logLevel arguments
  (match warning with
    | some warning => warning ++ "\n"
    | none => "") ++
  LogRecord.lines level outcome.records ++
  (match outcome.ending with
    | .ok () => ""
    | .error failure => failure.lastLine)

def Outcome.exitCode (outcome : Outcome) : Nat :=
  match outcome.ending with
  | .ok () => 0
  | .error _ => 1

end Loader

end Reflash
