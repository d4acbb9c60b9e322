/-
  Reflash.Session.Basic

  The host's side of an update. A session announces the image, sends it chunk by
  chunk, and at last asks the node to jump:

      start --> awaitingManifest --> awaitingChunk 0 --> ... --> done

  One datagram is outstanding at a time. It is sent again when the node has not
  answered in time or reports a passing fault, so many times and no more. The node
  may refuse a datagram that was sent again because its first copy had arrived and
  only the answer was lost; such a refusal counts as acceptance.
-/
import Reflash.Datagram.Acknowledgement
import Reflash.Datagram.JumpRequest
import Reflash.Datagram.Manifest
import Reflash.Link.Endpoint
import Reflash.Link.Loopback

namespace Reflash

/-! ## Options, states, errors -/

structure SessionOptions where
  /-- The node addressed; without one, whichever listens. -/
  target : Option UInt8 := none
  version : UInt8 × UInt8 := (0, 0)
  id : FirmwareId := default
  /-- Image bytes per chunk. -/
  chunkSize : Nat := Datagram.maxSize
  /-- How often a datagram may be sent again. -/
  maxRetries : UInt8 := 5
  deriving DecidableEq

/-- A chunk fits into a datagram and is a whole number of words. -/
def SessionOptions.Valid (options : SessionOptions) : Prop :=
  0 < options.chunkSize ∧ options.chunkSize ≤ Datagram.maxSize ∧ options.chunkSize % 4 = 0

instance (options : SessionOptions) : Decidable options.Valid :=
  inferInstanceAs (Decidable (_ ∧ _))

inductive SessionStage where
  | start
  | awaitingManifest
  | awaitingChunk (index : Nat)
  | done
  deriving DecidableEq, Inhabited

inductive SessionError where
  | fault (fault : Fault)
  | invalidOptions
  | emptyFirmware
  /-- More bytes came than the receive buffer has room for. -/
  | noRoom
  /-- The node sent something other than an acknowledgement. -/
  | unexpectedDatagram (kind : Datagram.Kind)
  /-- The node refused the outstanding datagram for good. -/
  | nodeRejected (kind : Datagram.Kind) (code : UInt32)
  | retriesExhausted
  /-- The count of repeats has no room for another. -/
  | countOverflow
  | sessionEnded
  deriving DecidableEq, Inhabited

namespace SessionError

def name : SessionError → String
  | fault _ => "Fota"
  | invalidOptions => "InvalidOptions"
  | emptyFirmware => "EmptyFirmware"
  | noRoom => "RxBufferNotEnoughSpace"
  | unexpectedDatagram _ => "UnexpectedDatagram"
  | nodeRejected _ _ => "NodeRejected"
  | retriesExhausted => "RetriesExhausted"
  | countOverflow => "CountOverflow"
  | sessionEnded => "SessionEnded"

/-- The error with all its parts. -/
def describe : SessionError → String
  | fault cause => "Fota(" ++ cause.name ++ ")"
  | unexpectedDatagram kind => "UnexpectedDatagram(" ++ kind.name ++ ")"
  | nodeRejected kind code =>
    "NodeRejected \x7b response_to: " ++ kind.name ++ ", error_code: " ++ toString code ++ " \x7d"
  | error => error.name

end SessionError

structure Session where
  firmware : Bytes
  options : SessionOptions
  stage : SessionStage := .start
  /-- Received bytes, and the datagram under way. -/
  endpoint : Endpoint Loopback
  /-- The frames of the outstanding datagram. -/
  outgoing : Bytes := []
  /-- Whether those frames are still to be collected. -/
  due : Bool := false
  /-- How often the outstanding datagram has been sent again. -/
  retries : UInt8 := 0

namespace Session

/-- Id of the announcement, kept clear of the chunks' ids. -/
def manifestId : UInt32 := 0xFFFF0000

/-- Id of the jump request. -/
def jumpId : UInt32 := 0xFFFF0001

/-- A session for an image, with a receive buffer of `capacity` bytes. -/
def new (capacity : Nat) (firmware : Bytes) (options : SessionOptions) :
    Except SessionError Session :=
  if ¬options.Valid then .error .invalidOptions
  else if firmware.isEmpty then .error .emptyFirmware
  else if 0x100000000 ≤ firmware.length then .error (.fault .binaryOversized)
  else .ok { firmware, options, endpoint := { link := { capacity } } }

/-! ## What is sent -/

/-- Chunks of the image. -/
def chunkCount (session : Session) : Nat :=
  (session.firmware.length + session.options.chunkSize - 1) / session.options.chunkSize

/-- Chunks accepted so far, and chunks of the whole image. -/
def progress (session : Session) : Nat × Nat :=
  (match session.stage with
    | .start | .awaitingManifest => 0
    | .awaitingChunk index => index
    | .done => session.chunkCount,
  session.chunkCount)

def manifest (session : Session) : Manifest where
  size := .ofNat session.firmware.length
  crc := Crc32.ofImage session.firmware
  major := session.options.version.1
  minor := session.options.version.2
  id := session.options.id

/-- The datagram that announces the image. -/
def manifestDatagram (session : Session) : Datagram :=
  session.manifest.toDatagram manifestId session.options.target

/-- Image bytes of a chunk. -/
def chunk (session : Session) (index : Nat) : Bytes :=
  (session.firmware.drop (index * session.options.chunkSize)).take session.options.chunkSize

/-- The datagram that carries a chunk; its id is the chunk's index. -/
def chunkDatagram (session : Session) (index : Nat) : Datagram :=
  .pack .firmwareChunk (.ofNat index) session.options.target (session.chunk index)

/-- The datagram that asks the node to jump. -/
def jumpDatagram (session : Session) : Datagram :=
  ({} : JumpRequest).toDatagram jumpId session.options.target

/-- Makes `datagram` the outstanding one. -/
def queue (session : Session) (datagram : Datagram) : Session :=
  { session with outgoing := datagram.frames.flatten, due := true }

def queueChunk (session : Session) (index : Nat) : Session :=
  { session.queue (session.chunkDatagram index) with stage := .awaitingChunk index }

/-- The frames to be sent, once. -/
def collect (session : Session) : Option Bytes × Session :=
  if session.due then (some session.outgoing, { session with due := false })
  else (none, session)

/-! ## What is answered -/

/-- Moves on to the next datagram. -/
def advance (session : Session) : Session :=
  match session.stage with
  | .awaitingManifest => { session.queueChunk 0 with retries := 0 }
  | .awaitingChunk index =>
    if index + 1 < session.chunkCount then
      { session.queueChunk (index + 1) with retries := 0 }
    else { session.queue session.jumpDatagram with stage := .done, retries := 0 }
  | .start | .done => { session with retries := 0 }

/-- Has the outstanding datagram sent again. -/
def retransmit (session : Session) : Except SessionError Session :=
  -- The repeat is counted before it is held against the limit.
  if session.retries = 255 then .error .countOverflow
  else if session.retries + 1 > session.options.maxRetries then .error .retriesExhausted
  else .ok { session with retries := session.retries + 1, due := true }

/-- Kind and id of the outstanding datagram, as far as an answer is awaited. -/
def outstanding? (session : Session) : Option (Datagram.Kind × UInt32) :=
  match session.stage with
  | .awaitingManifest => some (.firmwareMetadata, manifestId)
  | .awaitingChunk index => some (.firmwareChunk, .ofNat index)
  | .start | .done => none

/-- What an acknowledgement means to a session. -/
inductive Verdict where
  /-- Nothing: it answers another datagram. -/
  | stale
  | accepted
  /-- A refusal that shows that an earlier copy had been accepted. -/
  | alreadyApplied
  /-- A passing fault. -/
  | tryAgain
  | rejected (kind : Datagram.Kind) (code : UInt32)
  deriving DecidableEq

/-- Whether a node that has taken the outstanding datagram refuses another copy of it so. -/
def isRepeatRefusal (session : Session) (fault : Option Fault) : Bool :=
  match session.stage with
  | .awaitingManifest => fault == some .bootloaderInvalidState
  | .awaitingChunk _ =>
    fault == some .sequenceOutOfOrder || fault == some .bootloaderInvalidState
  | .start | .done => false

/-- Whether a fault may pass when the datagram is sent again. -/
def isPassing (fault : Option Fault) : Bool :=
  [Fault.crcMismatch, .invalidPacket, .internalError, .timeout, .transportFailure].any
    fun passing => fault == some passing

def judge (session : Session) (ack : Acknowledgement) : Verdict :=
  match session.outstanding? with
  | none => .stale
  | some (kind, id) =>
    if ack.kind ≠ kind ∨ ack.id ≠ id then .stale
    else if ack.accepted then .accepted
    -- Of a datagram sent once there is no earlier copy: its refusal means what it says.
    else if session.retries > 0 ∧ session.isRepeatRefusal ack.fault? then .alreadyApplied
    else if isPassing ack.fault? then .tryAgain
    else .rejected kind ack.code

/-- Acts on an acknowledgement. -/
def answer (session : Session) (ack : Acknowledgement) : Except SessionError Session :=
  match session.judge ack with
  | .stale => .ok session
  | .accepted | .alreadyApplied => .ok session.advance
  | .tryAgain => session.retransmit
  | .rejected kind code => .error (.nodeRejected kind code)

/-! ## What is received -/

/-- Received bytes not looked at yet. -/
def inbox (session : Session) : Bytes :=
  session.endpoint.link.incoming

def withInbox (session : Session) (bytes : Bytes) : Session :=
  { session with endpoint.link.incoming := bytes }

/-- Drops bytes ahead of the next start marker. -/
def dropNoise (session : Session) : Session :=
  session.withInbox (session.inbox.dropWhile (· ≠ Packet.startMarker))

/-- The acknowledgement that a receipt brings, if it brings one. -/
def acknowledgement? : Receipt → Except SessionError (Option Acknowledgement)
  | .delivered _ datagram =>
    match datagram.kind, Acknowledgement.decode datagram.data with
    | .acknowledgement, .ok ack => .ok (some ack)
    | kind, _ => .error (.unexpectedDatagram kind)
  | _ => .ok none

/-- Takes one frame out of the inbox. -/
def receive (session : Session) : Receipt × Session :=
  let (receipt, endpoint) := session.endpoint.receive
  (receipt, { session with endpoint })

/-- Acts on what a frame came to. -/
def actOn (session : Session) (receipt : Receipt) : Except SessionError Session :=
  match acknowledgement? receipt with
  | .error error => .error error
  | .ok none => .ok session
  | .ok (some ack) => session.answer ack

/-- Takes one frame out of the inbox and acts on it. -/
def takeFrame (session : Session) : Except SessionError Session :=
  let (receipt, session) := session.receive
  session.actOn receipt

end Session

end Reflash
