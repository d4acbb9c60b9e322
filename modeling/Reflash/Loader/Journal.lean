/-
  Reflash.Loader.Journal

  What is logged of a session: for each thing a session does, the records that
  tell of it. The records are read off the session and what it takes in; they
  change nothing.
-/
import Reflash.Loader.Log
import Reflash.Session.Drain
import Reflash.Text.Quoted

namespace Reflash

namespace Journal

/-! ## Frames and datagrams -/

def ofDatagrams (level : LogLevel) (message : String) : LogRecord :=
  { level, source := "fota_core::datagram", message }

def ofLink (level : LogLevel) (message : String) : LogRecord :=
  { level, source := "fota_core::packet_manager", message }

/-- How an applied packet changed the datagram under way. -/
def ofPacket (before : Assembly) (packet : Packet) : List LogRecord :=
  match packet.kind with
  | .header =>
    match Datagram.Header.decode packet.used with
    | .error _ => []
    | .ok header =>
      if before.holds header.id then
        [ofDatagrams .trace ("Repeated header for datagram " ++ toString header.id)]
      else
        [ofDatagrams .debug ("Datagram " ++ toString header.id ++ " started: " ++
          header.kind.name ++ ", " ++ toString header.total ++ " bytes in " ++
          toString header.packets ++ " packets")]
  | _ =>
    [ofDatagrams .trace ("Datagram " ++ toString before.datagram.id ++ " packet " ++
      toString packet.sequence ++ " stored, " ++ toString (before.datagram.received + 1) ++ "/" ++
      toString before.datagram.header.packets)]

/-- What one attempt to receive a frame came to. -/
def ofReceipt (before : Assembly) : Receipt → List LogRecord
  | .silence => []
  | .cutShort filled =>
    [ofLink .debug ("Partial frame of " ++ toString filled ++ " bytes dropped")]
  | .linkFailed error => [ofLink .warn ("Transport read failed: " ++ error.name)]
  | .malformed fault => [ofLink .debug ("Dropping malformed frame: " ++ fault.message)]
  | .corrupt packet =>
    [ofLink .debug ("Dropping packet " ++ toString packet.id ++ "/" ++
      toString packet.sequence ++ " with bad crc")]
  | .unrouted packet => [ofLink .debug ("Ignoring " ++ packet.kind.name ++ " packet")]
  | .refused packet fault =>
    [ofLink .debug ("Packet " ++ toString packet.id ++ "/" ++ toString packet.sequence ++
      " rejected: " ++ fault.message)]
  | .accepted packet => ofPacket before packet
  | .spoiled packet datagram =>
    ofPacket before packet ++
      [ofLink .error ("Datagram " ++ toString datagram.id ++ " failed verification: " ++
        Fault.crcMismatch.message)]
  | .delivered packet datagram =>
    ofPacket before packet ++
      [ofLink .debug ("Datagram " ++ toString datagram.id ++ " (" ++ datagram.kind.name ++
        ") complete")]

/-! ## The session -/

def ofSession (level : LogLevel) (message : String) : LogRecord :=
  { level, source := "fota_host_core", message }

def stageName : SessionStage → String
  | .start => "Start"
  | .awaitingManifest => "WaitingMetadataAck"
  | .awaitingChunk index => "WaitingChunkAck(" ++ toString index ++ ")"
  | .done => "Done"

def faultName : Option Fault → String
  | some fault => "Some(" ++ fault.name ++ ")"
  | none => "None"

/-- A datagram becomes the outstanding one. -/
def ofQueued (datagram : Datagram) : List LogRecord :=
  [ofLink .trace ("Sent datagram " ++ toString datagram.id ++ " in " ++
      toString datagram.packetCount ++ " packets"),
    ofSession .trace ("Queued " ++ datagram.kind.name ++ " datagram " ++ toString datagram.id ++
      " as " ++ toString datagram.frames.flatten.length ++ " bytes")]

def ofAdvance (session : Session) : List LogRecord :=
  match session.stage with
  | .awaitingManifest =>
    ofSession .trace "Metadata accepted, starting chunk transfer" ::
      ofQueued (session.chunkDatagram 0)
  | .awaitingChunk index =>
    if index + 1 < session.chunkCount then ofQueued (session.chunkDatagram (index + 1))
    else
      ofSession .trace ("All " ++ toString session.chunkCount ++
        " chunks accepted, requesting jump") :: ofQueued session.jumpDatagram
  | .start | .done => []

def ofRetransmit (session : Session) : List LogRecord :=
  match session.retransmit with
  | .error .retriesExhausted =>
    [ofSession .error ("Giving up after " ++ toString session.options.maxRetries ++ " retries")]
  | .error _ => []
  | .ok next => [ofSession .debug ("Retransmitting, attempt " ++ toString next.retries)]

def ofAnswer (session : Session) (ack : Acknowledgement) : List LogRecord :=
  match session.outstanding? with
  | none => []
  | some (kind, id) =>
    let refused := ofSession .warn ("Node refused " ++ kind.name ++ " " ++ toString id ++ ": " ++
      faultName ack.fault?)
    match session.judge ack with
    | .stale =>
      [ofSession .debug ("Ignoring stale acknowledgement for " ++ ack.kind.name ++ " " ++
        toString ack.id)]
    | .accepted => ofAdvance session
    | .alreadyApplied =>
      refused :: ofSession .debug "Earlier copy was applied, carrying on" :: ofAdvance session
    | .tryAgain => refused :: ofRetransmit session
    | .rejected _ _ => [refused]

/-- Why a receipt that brings no acknowledgement is passed over. -/
def ofPassedOver : Receipt → List LogRecord
  | .malformed _ => [ofSession .debug ("Discarded frame: " ++ DiscardReason.malformed.name)]
  | .corrupt _ => [ofSession .debug ("Discarded frame: " ++ DiscardReason.crcMismatch.name)]
  | .unrouted _ => [ofSession .debug ("Discarded frame: " ++ DiscardReason.unrouted.name)]
  | .refused _ fault => [ofSession .debug ("Packet rejected: " ++ fault.message)]
  | .linkFailed _ =>
    [ofSession .debug ("Packet rejected: " ++ Fault.transportFailure.message)]
  | _ => []

/-- One frame is taken out of the inbox. -/
def ofFrame (session : Session) : List LogRecord :=
  let (receipt, next) := session.receive
  ofReceipt session.endpoint.assembly receipt ++
    match Session.acknowledgement? receipt, receipt with
    | .error _, .delivered _ datagram =>
      [ofSession .trace ("Unexpected " ++ datagram.kind.name ++ " datagram from node")]
    | .ok (some ack), _ => ofAnswer next ack
    | _, receipt => ofPassedOver receipt

/-- The inbox is looked at until less than a frame is left. -/
def ofDrain (session : Session) : List LogRecord :=
  let dropped := session.inbox.length - session.dropNoise.inbox.length
  (if dropped = 0 then []
    else [ofSession .debug ("Dropped " ++ toString dropped ++
      " bytes ahead of a start marker")]) ++
  (if _h : session.dropNoise.inbox.length < Packet.frameSize then []
    else ofFrame session.dropNoise ++ match _hs : session.dropNoise.takeFrame with
      | .error _ => []
      | .ok next => if next.stage = .done then [] else ofDrain next)
termination_by session.inbox.length
decreasing_by
  -- As in `Session.drain`.
  have hne : session.dropNoise.inbox ≠ [] := by
    intro hnil
    simp [hnil, Packet.frameSize] at _h
  have := Session.length_inbox_takeFrame_lt hne _hs
  have := Session.length_inbox_dropNoise_le session
  omega

/-- A session is fed. -/
def ofFeed (session : Session) (incoming : Bytes) : List LogRecord :=
  if incoming.length + session.inbox.length > session.endpoint.link.capacity then []
  else
    ofSession .trace ("Called with " ++ toString incoming.length ++ " new bytes, " ++
      toString session.inbox.length ++ " bytes in buffer") ::
    ofSession .trace ("Session state: " ++ stageName session.stage) ::
    (match session.stage with
      | .start =>
        ofSession .trace ("Firmware image is " ++ toString session.firmware.length ++
          " bytes, CRC32 0x" ++ Text.hex 8 session.manifest.crc.toNat) ::
        ofQueued session.manifestDatagram ++
        [ofSession .trace "Generated metadata datagram, waiting for acknowledgement"]
      | .done => []
      | .awaitingManifest | .awaitingChunk _ =>
        ofDrain (session.withInbox (session.inbox ++ incoming))) ++
    match session.feed incoming with
    | .error _ => []
    | .ok _ => [ofSession .trace "Session actions completed"]

/-- A session times out. -/
def ofTimeOut (session : Session) : List LogRecord :=
  match session.stage with
  | .start | .done => []
  | .awaitingManifest | .awaitingChunk _ =>
    ofSession .debug ("Timed out in " ++ stageName session.stage) :: ofRetransmit session

/-- The due frames are collected. -/
def ofCollect (session : Session) : List LogRecord :=
  if session.due then
    [ofSession .trace ("Returning " ++ toString session.outgoing.length ++ " bytes to send")]
  else [ofSession .trace "Nothing to send"]

end Journal

end Reflash
